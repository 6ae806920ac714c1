import Solva.Prover.Proving

/-!
# The prover's RPC service

`ProverService::prove`: amounts arrive as decimal strings and are read as `u64`,
ids as hex strings. A request is rejected with the status of its first failing
check; one that passes becomes a witness inside the circuit's dimensions.
-/

namespace Solva.Prover

open Bn254 Codec

/-! ## Reading amounts -/

/-- `std::num::IntErrorKind`, as far as `u64` parsing produces it. -/
inductive IntErrorKind where
  | empty
  | invalidDigit
  | posOverflow
  deriving DecidableEq

/-- `Display for ParseIntError`. -/
def IntErrorKind.display : IntErrorKind → String
  | empty => "cannot parse integer from empty string"
  | invalidDigit => "invalid digit found in string"
  | posOverflow => "number too large to fit in target type"

/-- The digit loop of `u64::from_str_radix`. A digit is looked at before the
overflow of the digits before it is reported. -/
def parseDigits (value : U64) : List Char → Except IntErrorKind U64
  | [] => .ok value
  | c :: rest =>
      if c.isDigit then
        if fits : 10 * value.val + (c.toNat - '0'.toNat) < 2 ^ 64 then
          parseDigits ⟨10 * value.val + (c.toNat - '0'.toNat), fits⟩ rest
        else .error .posOverflow
      else .error .invalidDigit

/-- `str::parse::<u64>`. -/
def parseU64 (text : String) : Except IntErrorKind U64 :=
  match text.toList with
  | [] => .error .empty
  | ['+'] => .error .invalidDigit
  | ['-'] => .error .invalidDigit
  | '+' :: digits => parseDigits 0 digits
  | digits => parseDigits 0 digits

/-! ## The service -/

inductive Code where
  | invalidArgument
  | internal
  deriving DecidableEq

/-- `tonic::Status`. -/
structure Status where
  code : Code
  message : String
  deriving DecidableEq

structure Liability where
  customerIdHash : String
  balance : String

structure Reserve where
  balance : String

structure ProveRequest where
  reserves : List Reserve
  liabilities : List Liability
  prevReserves : String

/-- `proving_error_to_status`. -/
def provingErrorToStatus (e : ProvingError) : Status :=
  match e with
  | .witnessAssembly _ => ⟨.invalidArgument, e.display⟩
  | .proofGeneration _ => ⟨.internal, e.display⟩

/-- A `u64` amount of the request; `field` names it in the error. -/
def parseAmount (field text : String) : Except Status U128 :=
  match parseU64 text with
  | .ok value => .ok ⟨value.val, u64_lt_two_pow_128 value⟩
  | .error kind => .error ⟨.invalidArgument, "bad " ++ field ++ ": " ++ kind.display⟩

/-- `parse_field` with its error as a status. -/
def parseId (text : String) : Except Status Bytes32 :=
  (parseField text).mapError provingErrorToStatus

/-- The checks of the service, up to the witness. -/
def validate (req : ProveRequest) : Except Status Witness :=
  if req.reserves = [] then
    .error ⟨.invalidArgument, "at least one reserve is required"⟩
  else if req.liabilities = [] then
    .error ⟨.invalidArgument, "at least one liability is required"⟩
  else if req.liabilities.length > N then
    .error ⟨.invalidArgument, "too many liabilities: max " ++ toString N⟩
  else if req.reserves.length > M then
    .error ⟨.invalidArgument, "too many reserves: max " ++ toString M⟩
  else do
    let leafIds ← req.liabilities.mapM fun l => parseId l.customerIdHash
    let leafBalances ← req.liabilities.mapM fun l => parseAmount "liability balance" l.balance
    let reserves ← req.reserves.mapM fun r => parseAmount "reserve balance" r.balance
    let prevReserves ← parseAmount "prev_reserves" req.prevReserves
    pure ⟨leafIds, leafBalances, reserves, prevReserves⟩

/-- The public inputs of a response, as strings. -/
structure PublicInputs where
  reservesTotal : String
  liabilitiesTotal : String
  rootHash : String
  prevReserves : String
  deriving DecidableEq

structure ProveResponse where
  proof : List UInt8
  publicInputs : PublicInputs
  serializedTree : SerializedTree

/-- The response to a proof bundle. -/
def ProofBundle.toResponse (bundle : ProofBundle) : ProveResponse :=
  { proof := bundle.proof
    publicInputs :=
      { reservesTotal := toString bundle.reservesTotal.val
        liabilitiesTotal := toString bundle.liabilitiesTotal.val
        rootHash := String.ofList (Hex.encode bundle.rootHash.bytes)
        prevReserves := toString bundle.prevReserves.val }
    serializedTree := bundle.serializedTree }

/-- `ProverService::prove`. -/
def serviceProve (hash4 : Hash4) (tools : Tools) (req : ProveRequest) :
    Option (Except Status ProveResponse) :=
  match validate req with
  | .error status => some (.error status)
  | .ok witness =>
      (prove hash4 tools witness).map fun bundle? =>
        (bundle?.mapError provingErrorToStatus).map ProofBundle.toResponse

/-! ## What a validated request gives -/

theorem parseDigits_eq_ok_iff {value out : U64} {text : List Char} :
    parseDigits value text = .ok out ↔
      (∀ c ∈ text, c.isDigit) ∧ Nat.ofDigitChars 10 text value.val = out.val := by
  induction text generalizing value with
  | nil => simp [parseDigits, Fin.ext_iff]
  | cons c rest ih =>
      rw [parseDigits, Nat.ofDigitChars_cons]
      by_cases digit : c.isDigit
      · rw [if_pos digit]
        by_cases fits : 10 * value.val + (c.toNat - '0'.toNat) < 2 ^ 64
        · rw [dif_pos fits, ih]
          simp [digit]
        · have grows : 10 * value.val + (c.toNat - '0'.toNat) ≤
              Nat.ofDigitChars 10 rest (10 * value.val + (c.toNat - '0'.toNat)) := by
            rw [Nat.ofDigitChars_eq_ofDigitChars_zero]
            exact Nat.le_add_right_of_le (Nat.le_mul_of_pos_left _ (Nat.pow_pos (by decide)))
          have out_lt := out.isLt
          rw [dif_neg fits]
          constructor
          · intro failed
            cases failed
          · rintro ⟨_, value_eq⟩
            omega
      · rw [if_neg digit]
        simp [digit]

/-- Drop one leading plus sign. -/
def stripPlus : List Char → List Char
  | '+' :: digits => digits
  | digits => digits

/-- Rust reads a `u64` from a nonempty run of digits behind at most one plus sign,
if the number fits. -/
theorem parseU64_eq_ok_iff {text : String} {out : U64} :
    parseU64 text = .ok out ↔ Decimal.unsigned? (stripPlus text.toList) = some out.val := by
  rw [parseU64, Decimal.unsigned?_eq_some_iff]
  generalize text.toList = chars
  split
  · simp [stripPlus]
  · simp [stripPlus]
  · simp only [stripPlus, reduceCtorEq, false_iff]
    rintro ⟨_, digits, _⟩
    exact absurd (digits '-' (by simp)) (by decide)
  · rename_i digits nonempty
    have digits_ne : digits ≠ [] := fun empty => nonempty (by rw [empty])
    rw [parseDigits_eq_ok_iff, stripPlus]
    exact ⟨fun read => ⟨digits_ne, read.1, read.2.symm⟩, fun read => ⟨read.2.1, read.2.2.symm⟩⟩
  · rename_i empty _ _ unsigned
    have plain : stripPlus chars = chars := by
      cases chars with
      | nil => rfl
      | cons c rest =>
          by_cases plus : c = '+'
          · subst plus
            exact absurd rfl (unsigned rest)
          · unfold stripPlus
            split
            · rename_i digits eq
              exact absurd (List.cons.inj eq).1 plus
            · rfl
    rw [parseDigits_eq_ok_iff, plain]
    exact ⟨fun read => ⟨empty, read.1, read.2.symm⟩, fun read => ⟨read.2.1, read.2.2.symm⟩⟩

theorem parseAmount_eq_ok {field text : String} {amount : U128}
    (read : parseAmount field text = .ok amount) :
    amount.val < 2 ^ 64 ∧
      Decimal.unsigned? (stripPlus text.toList) = some amount.val := by
  unfold parseAmount at read
  split at read
  · rename_i value parsed
    cases read
    exact ⟨value.isLt, parseU64_eq_ok_iff.mp parsed⟩
  · cases read

/-- A witness inside the circuit's dimensions: every amount is a `u64`. -/
structure Witness.Validated (w : Witness) : Prop extends w.Checked where
  reserves_nonempty : w.reserves ≠ []
  balances_u64 : ∀ balance ∈ w.leafBalances, balance.val < 2 ^ 64
  reserves_u64 : ∀ figure ∈ w.reserves, figure.val < 2 ^ 64
  prev_u64 : w.prevReserves.val < 2 ^ 64

private theorem forall₂_of_mapM {ε α β : Type} {read : α → Except ε β} {items : List α}
    {out : List β} (ok : items.mapM read = .ok out) :
    List.Forall₂ (fun item value => read item = .ok value) items out := by
  induction items generalizing out with
  | nil =>
      cases ok
      exact List.Forall₂.nil
  | cons item items ih =>
      rw [List.mapM_cons] at ok
      cases first : read item with
      | error e => simp [first, bind, Except.bind] at ok
      | ok value =>
          cases rest : items.mapM read with
          | error e => simp [first, rest, bind, Except.bind] at ok
          | ok values =>
              simp only [first, rest, bind, Except.bind, pure, Except.pure, Except.ok.injEq] at ok
              rw [← ok]
              exact List.Forall₂.cons first (ih rest)

/-- What `validate` establishes, each field read from its own text. -/
theorem validate_eq_ok {req : ProveRequest} {w : Witness} (ok : validate req = .ok w) :
    List.Forall₂ (fun (l : Liability) id => parseId l.customerIdHash = .ok id)
        req.liabilities w.leafIds ∧
      List.Forall₂ (fun (l : Liability) balance =>
        parseAmount "liability balance" l.balance = .ok balance)
        req.liabilities w.leafBalances ∧
      List.Forall₂ (fun (r : Reserve) figure =>
        parseAmount "reserve balance" r.balance = .ok figure) req.reserves w.reserves ∧
      parseAmount "prev_reserves" req.prevReserves = .ok w.prevReserves ∧
      req.reserves ≠ [] ∧ req.liabilities ≠ [] ∧
      req.liabilities.length ≤ N ∧ req.reserves.length ≤ M := by
  unfold validate at ok
  split at ok
  · cases ok
  split at ok
  · cases ok
  split at ok
  · cases ok
  split at ok
  · cases ok
  rename_i reserves_ne liabilities_ne liabilities_le reserves_le
  cases ids : req.liabilities.mapM fun l => parseId l.customerIdHash with
  | error e => simp [ids, bind, Except.bind] at ok
  | ok leafIds =>
  cases balances : req.liabilities.mapM fun l => parseAmount "liability balance" l.balance with
  | error e => simp [ids, balances, bind, Except.bind] at ok
  | ok leafBalances =>
  cases figures : req.reserves.mapM fun r => parseAmount "reserve balance" r.balance with
  | error e => simp [ids, balances, figures, bind, Except.bind] at ok
  | ok reserves =>
  cases prev : parseAmount "prev_reserves" req.prevReserves with
  | error e => simp [ids, balances, figures, prev, bind, Except.bind] at ok
  | ok prevReserves =>
      simp only [ids, balances, figures, prev, bind, Except.bind, pure, Except.pure,
        Except.ok.injEq] at ok
      subst ok
      exact ⟨forall₂_of_mapM ids, forall₂_of_mapM balances, forall₂_of_mapM figures, rfl,
        reserves_ne, liabilities_ne, Nat.not_lt.mp liabilities_le, Nat.not_lt.mp reserves_le⟩

/-- A validated request is a witness inside the circuit's dimensions. -/
theorem validated_of_validate {req : ProveRequest} {w : Witness}
    (ok : validate req = .ok w) : w.Validated := by
  obtain ⟨ids, balances, figures, prev, reserves_ne, liabilities_ne, liabilities_le,
    reserves_le⟩ := validate_eq_ok ok
  have u64_of_mem {α : Type} {items : List α} {amounts : List U128} {field : String}
      {text : α → String}
      (read : List.Forall₂ (fun item amount => parseAmount field (text item) = .ok amount)
        items amounts) : ∀ amount ∈ amounts, amount.val < 2 ^ 64 := by
    intro amount mem
    induction read with
    | nil => cases mem
    | cons first _ ih =>
        rcases List.mem_cons.mp mem with rfl | mem
        · exact (parseAmount_eq_ok first).1
        · exact ih mem
  exact {
    length_eq := ids.length_eq.symm.trans balances.length_eq
    nonempty := by
      intro empty
      rw [empty] at balances
      exact liabilities_ne (List.forall₂_nil_right_iff.mp balances)
    customers_le := balances.length_eq ▸ liabilities_le
    reserves_le := figures.length_eq ▸ reserves_le
    reserves_nonempty := by
      intro empty
      rw [empty] at figures
      exact reserves_ne (List.forall₂_nil_right_iff.mp figures)
    balances_u64 := u64_of_mem balances
    reserves_u64 := u64_of_mem figures
    prev_u64 := (parseAmount_eq_ok prev).1 }

end Solva.Prover
