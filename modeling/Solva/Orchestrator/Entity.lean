import Solva.Codec.Decimal
import Solva.Codec.Hex
import Solva.Field.Bn254

/-!
# Entities and errors of the orchestrator

The domain values of `internal/entity`, Go's error values with the texts that
`Error()` renders, and the conversions of `convert.go` between texts and the
database's own types. Amounts stay decimal strings in the entities.
-/

namespace Solva.Orchestrator

open Bn254 Codec

/-! ## Errors -/

/-- The package-level error values that callers test with `errors.Is`. -/
inductive Sentinel where
  | notFound
  | tenantNotProvisioned
  | cycleInProgress
  | duplicateCycle
  | insolvent
  | notConfigured
  | unexpectedReturn
  | canceled
  | deadlineExceeded
  deriving DecidableEq

def Sentinel.text : Sentinel → String
  | notFound => "repo: not found"
  | tenantNotProvisioned => "repo: tenant has no contract"
  | cycleInProgress => "usecase: cycle already in progress for tenant"
  | duplicateCycle => "usecase: cycle already ran for this request key"
  | insolvent => "usecase: reserves are below liabilities"
  | notConfigured =>
      "stellar: publisher not configured (missing signer, rpc, or target contract id)"
  | unexpectedReturn => "stellar: publish_proof did not return a u64 proof id"
  | canceled => "context canceled"
  | deadlineExceeded => "context deadline exceeded"

/-- A Go error value. `wrapped` is `fmt.Errorf` with one `%w`, `transient` the
publisher's `transientError`. -/
inductive GoError where
  | sentinel (value : Sentinel)
  | plain (text : String)
  | wrapped (before : String) (inner : GoError) (after : String)
  | transient (inner : GoError)
  deriving DecidableEq

namespace GoError

/-- `Error()`. -/
def message : GoError → String
  | sentinel value => value.text
  | plain text => text
  | wrapped before inner after => before ++ inner.message ++ after
  | transient inner => inner.message

/-- `errors.Is(err, target)`. -/
def is (target : Sentinel) : GoError → Bool
  | sentinel value => value = target
  | plain _ => false
  | wrapped _ inner _ => inner.is target
  | transient inner => inner.is target

/-- `errors.As(err, &transient)`. -/
def isTransient : GoError → Bool
  | sentinel _ => false
  | plain _ => false
  | wrapped _ inner _ => inner.isTransient
  | transient _ => true

/-- `fmt.Errorf("context: %w", err)`. -/
def wrap (context : String) (err : GoError) : GoError :=
  wrapped (context ++ ": ") err ""

end GoError

/-- A Go result pair `(value, error)`. -/
abbrev Result (α : Type) : Type :=
  Except GoError α

/-! ## Entities -/

structure Reserve where
  sourceID : String
  /-- Decimal string, integer minor units. -/
  balance : String
  currency : String
  deriving DecidableEq

structure ReserveSnapshot where
  tenantID : String
  reserves : List Reserve
  /-- RFC 3339 text of the capture time. -/
  capturedAt : String
  deriving DecidableEq

/-- A customer balance witnessed into the tree. -/
structure Liability where
  customerIDHash : String
  balance : String
  deriving DecidableEq

structure PublicInputs where
  reservesTotal : String
  liabilitiesTotal : String
  prevReserves : String
  rootHash : String
  deriving DecidableEq

/-- A published proof; the internal id and the time come from the database. -/
structure Proof where
  id : String
  tenantID : String
  chainProofID : U64
  rootHash : String
  reservesTotal : String
  liabilitiesTotal : String
  blob : List UInt8
  publishedAt : Nat
  deriving DecidableEq

structure TenantContract where
  contractID : String
  network : String
  deriving DecidableEq

/-- One sibling step on an inclusion path. -/
structure PathNode where
  hash : String
  sum : String
  left : Bool
  deriving DecidableEq

structure InclusionRef where
  proofID : String
  customerIDHash : String
  balance : String
  path : List PathNode
  rootHash : String
  deriving DecidableEq

/-! ## Conversions -/

/-- `%q` on text without control characters. -/
def quote (text : String) : String :=
  "\"" ++ String.ofList (text.toList.flatMap fun c =>
    if c = '"' ∨ c = '\\' then ['\\', c] else [c]) ++ "\""

abbrev Uuid : Type :=
  BytesN 16

/-- The digits of a UUID text: dashes, where there are any, are dropped by
position. -/
def uuidDigits (chars : List Char) : List Char :=
  if chars.length = 36 then
    chars.take 8 ++ (chars.drop 9).take 4 ++ (chars.drop 14).take 4 ++
      (chars.drop 19).take 4 ++ chars.drop 24
  else chars

/-- The UUID that `pgtype` scans from text of 32 or 36 bytes. -/
def parseUUID (text : String) : Option Uuid :=
  if text.toList.all (fun c => c.toNat < 128) ∧
      (text.toList.length = 36 ∨ text.toList.length = 32) then
    (Hex.decode (uuidDigits text.toList)).bind fun bytes =>
      if width : bytes.length = 16 then some ⟨bytes, width⟩ else none
  else none

/-- `toUUID`. -/
def toUUID (s : String) : Result Uuid :=
  match parseUUID s with
  | some id => .ok id
  | none => .error (.wrap ("parse uuid " ++ quote s) (.plain ("cannot parse UUID " ++ s)))

/-- `fromUUID`: the canonical 8-4-4-4-12 form. -/
def fromUUID (id : Uuid) : String :=
  let digits := Hex.encode id.bytes
  String.ofList (digits.take 8 ++ '-' :: (digits.drop 8).take 4 ++
    '-' :: (digits.drop 12).take 4 ++ '-' :: (digits.drop 16).take 4 ++ '-' :: digits.drop 20)

/-- Taking the dashes out of five groups gives the groups. -/
theorem uuidDigits_groups {a b c d e : List Char} (a_len : a.length = 8) (b_len : b.length = 4)
    (c_len : c.length = 4) (d_len : d.length = 4) (e_len : e.length = 12) :
    uuidDigits (a ++ '-' :: b ++ '-' :: c ++ '-' :: d ++ '-' :: e) = a ++ b ++ c ++ d ++ e := by
  have a_drop (n : Nat) : a.drop (8 + n) = [] := List.drop_eq_nil_of_le (by omega)
  have b_drop (n : Nat) : b.drop (4 + n) = [] := List.drop_eq_nil_of_le (by omega)
  have c_drop (n : Nat) : c.drop (4 + n) = [] := List.drop_eq_nil_of_le (by omega)
  have d_drop (n : Nat) : d.drop (4 + n) = [] := List.drop_eq_nil_of_le (by omega)
  rw [uuidDigits, if_pos (by simp [a_len, b_len, c_len, d_len, e_len])]
  simp [List.drop_append, a_len, b_len, c_len, d_len, a_drop 1, a_drop 6, a_drop 11, a_drop 16,
    b_drop 1, b_drop 6, b_drop 11, c_drop 1, c_drop 6, d_drop 1]

/-- The canonical text of a UUID is made of dashes and digits. -/
theorem mem_fromUUID {c : Char} {id : Uuid} (mem : c ∈ (fromUUID id).toList) :
    c = '-' ∨ ∃ n < 16, c = Nat.digitChar n := by
  simp only [fromUUID, String.toList_ofList, List.mem_append, List.mem_cons] at mem
  have split : c = '-' ∨ c ∈ Hex.encode id.bytes := by
    rcases mem with ((((mem | mem | mem) | mem | mem) | mem | mem) | mem | mem)
    all_goals first
      | exact Or.inl mem
      | exact Or.inr (List.mem_of_mem_take mem)
      | exact Or.inr (List.mem_of_mem_drop mem)
      | exact Or.inr (List.mem_of_mem_drop (List.mem_of_mem_take mem))
  exact split.imp_right Hex.exists_digit_of_mem_encode

theorem length_fromUUID (id : Uuid) : (fromUUID id).toList.length = 36 := by
  simp [fromUUID, id.length_eq]

/-- `toUUID` reads back what `fromUUID` writes. -/
theorem toUUID_fromUUID (id : Uuid) : toUUID (fromUUID id) = .ok id := by
  have width : (Hex.encode id.bytes).length = 32 := by
    rw [Hex.length_encode, id.length_eq]
  have digits_eq : uuidDigits (fromUUID id).toList = Hex.encode id.bytes := by
    rw [fromUUID, String.toList_ofList, uuidDigits_groups (by simp [width]) (by simp [width])
      (by simp [width]) (by simp [width]) (by simp [width])]
    conv_rhs => rw [← List.take_append_drop 8 (Hex.encode id.bytes),
      ← List.take_append_drop 4 ((Hex.encode id.bytes).drop 8), List.drop_drop,
      ← List.take_append_drop 4 ((Hex.encode id.bytes).drop 12), List.drop_drop,
      ← List.take_append_drop 4 ((Hex.encode id.bytes).drop 16), List.drop_drop]
    simp only [List.append_assoc]
  have ascii : ∀ c ∈ (fromUUID id).toList, c.toNat < 128 := by
    intro c mem
    rcases mem_fromUUID mem with rfl | ⟨n, n_lt, rfl⟩
    · decide
    · interval_cases n <;> decide
  have parsed : parseUUID (fromUUID id) = some id := by
    rw [parseUUID, if_pos ⟨List.all_eq_true.mpr fun c mem => decide_eq_true (ascii c mem),
      Or.inl (length_fromUUID id)⟩, digits_eq, Hex.decode_encode, Option.bind_some,
      dif_pos id.length_eq]
  rw [toUUID, parsed]

/-- `fromUUID` writes no colon. -/
theorem colon_not_mem_fromUUID (id : Uuid) : ':' ∉ (fromUUID id).toList := by
  intro mem
  rcases mem_fromUUID mem with dash | ⟨n, n_lt, digit⟩
  · cases dash
  · interval_cases n <;> cases digit

/-- `toNumeric`, on integers. -/
def toNumeric (s : String) : Result Int :=
  match Decimal.signed? s.toList with
  | some value => .ok value
  | none => .error (.wrap ("parse numeric " ++ quote s) (.plain (s ++ " is not a number")))

theorem toNumeric_eq_ok {s : String} {value : Int} (read : toNumeric s = .ok value) :
    Decimal.signed? s.toList = some value := by
  unfold toNumeric at read
  split at read
  · cases read
    assumption
  · cases read

/-- `fromNumeric`. -/
def fromNumeric (n : Int) : String :=
  toString n

end Solva.Orchestrator
