import Solva.Codec.Text
import Solva.Prover.Service

/-!
# Why the prover turns a request away

The prover's errors reach its caller as a code and a text. Only one text, the one for
reserves below liabilities, has the word that the caller looks for under the code for
an invalid argument; what `nargo` and `bb` print comes under another code.
-/

namespace Solva.Prover

open Bn254 Codec

/-! ## The external tools -/

/-- How an external command ends. -/
inductive CommandOutcome where
  | notSpawned (err : String)
  | failed (stderr : String)
  | succeeded

/-- `run`. -/
def runCommand (cmd arg : String) : CommandOutcome → Except ProvingError Unit
  | .notSpawned err => .error (.proofGeneration ("spawn " ++ cmd ++ ": " ++ err))
  | .failed stderr =>
      .error (.proofGeneration (cmd ++ " " ++ arg ++ " failed: " ++
        String.ofList (Text.trimSpace stderr.toList)))
  | .succeeded => .ok ()

/-- What the circuit directory and the two commands do with the inputs. -/
structure ToolRun where
  written : ProverToml → Except String Unit
  nargo : ProverToml → CommandOutcome
  bb : ProverToml → CommandOutcome
  proofFile : ProverToml → Except String (List UInt8)

/-- The locked section of `Prover::prove`. -/
def ToolRun.tools (run : ToolRun) : Tools := fun toml => do
  (run.written toml).mapError fun err => .proofGeneration ("write Prover.toml: " ++ err)
  runCommand "nargo" "execute" (run.nargo toml)
  runCommand "bb" "prove" (run.bb toml)
  (run.proofFile toml).mapError fun err => .proofGeneration ("read proof: " ++ err)

/-- The tools fail with proof generation errors only. -/
theorem ToolRun.tools_error {run : ToolRun} {toml : ProverToml} {err : ProvingError}
    (failed : run.tools toml = .error err) : ∃ message, err = .proofGeneration message := by
  have command {cmd arg : String} {outcome : CommandOutcome} {err : ProvingError}
      (failed : runCommand cmd arg outcome = .error err) :
      ∃ message, err = .proofGeneration message := by
    cases outcome with
    | notSpawned text =>
        cases failed
        exact ⟨_, rfl⟩
    | failed stderr =>
        cases failed
        exact ⟨_, rfl⟩
    | succeeded => cases failed
  unfold ToolRun.tools at failed
  cases wrote : run.written toml with
  | error text =>
      simp only [wrote, Except.mapError, bind, Except.bind] at failed
      cases failed
      exact ⟨_, rfl⟩
  | ok _ =>
  cases executed : runCommand "nargo" "execute" (run.nargo toml) with
  | error first =>
      simp only [wrote, executed, Except.mapError, bind, Except.bind] at failed
      cases failed
      exact command executed
  | ok _ =>
  cases proved : runCommand "bb" "prove" (run.bb toml) with
  | error second =>
      simp only [wrote, executed, proved, Except.mapError, bind, Except.bind] at failed
      cases failed
      exact command proved
  | ok _ =>
  cases file : run.proofFile toml with
  | error text =>
      simp only [wrote, executed, proved, file, Except.mapError, bind, Except.bind] at failed
      cases failed
      exact ⟨_, rfl⟩
  | ok bytes => simp [wrote, executed, proved, file, Except.mapError, bind, Except.bind] at failed

/-! ## The texts of the rejections -/

/-- A status that says insolvent. -/
def Status.SaysInsolvent (status : Status) : Prop :=
  status.code = .invalidArgument ∧ "insolvent".toList <:+: status.message.toList

/-- The errors of amounts do not say so. -/
theorem parseAmount_not_insolvent {field text : String} {status : Status}
    (field_mem : field ∈ ["liability balance", "reserve balance", "prev_reserves"])
    (failed : parseAmount field text = .error status) : ¬ status.SaysInsolvent := by
  unfold parseAmount at failed
  split at failed
  · cases failed
  · rename_i kind _
    cases failed
    rintro ⟨_, inside⟩
    revert inside
    simp only [List.mem_cons, List.not_mem_nil, or_false] at field_mem
    rcases field_mem with rfl | rfl | rfl
    all_goals
      cases kind
      all_goals decide

/-- A byte in `Debug` form is shorter than the word. -/
theorem length_charDebug_lt (byte : UInt8) :
    (charDebug (Char.ofNat byte.toNat)).toList.length < "insolvent".toList.length := by
  have bounded :
      ∀ n < 256, (charDebug (Char.ofNat n)).toList.length < "insolvent".toList.length := by
    decide +kernel
  exact bounded byte.toNat byte.toNat_lt

/-- What `hex::decode` finds wrong with an id is told without the word. -/
theorem fromHexError_not_insolvent (text : String) :
    ¬ "insolvent".toList <:+:
      ("witness assembly failed: bad id_hash hex: " ++ fromHexError text).toList := by
  have space : ' ' ∉ "insolvent".toList := by decide
  unfold fromHexError
  dsimp only
  split
  · decide
  · generalize text.toUTF8.data.toList.findIdx _ = index
    generalize text.toUTF8.data.toList[index]?.getD 0 = byte
    have spelled : ("witness assembly failed: bad id_hash hex: " ++
          ("Invalid character " ++ charDebug (Char.ofNat byte.toNat) ++ " at position " ++
            toString index)).toList =
        "witness assembly failed: bad id_hash hex: Invalid character".toList ++ ' ' ::
          ((charDebug (Char.ofNat byte.toNat)).toList ++ ' ' ::
            ("at position".toList ++ ' ' :: (toString index).toList)) := by
      simp [String.toList_append]
    rw [spelled, Text.infix_append_cons_iff space, Text.infix_append_cons_iff space,
      Text.infix_append_cons_iff space]
    rintro (inside | inside | inside | inside)
    · exact absurd inside (by decide)
    · exact Text.not_infix_of_length_lt (length_charDebug_lt byte) inside
    · exact absurd inside (by decide)
    · have letter : 'i' ∈ (toString index).toList := inside.subset (by decide)
      exact absurd (Decimal.repr_isDigit letter) (by decide)

/-- Neither do the errors of ids. -/
theorem parseId_not_insolvent {text : String} {status : Status}
    (failed : parseId text = .error status) : ¬ status.SaysInsolvent := by
  unfold parseId parseField at failed
  rintro ⟨_, inside⟩
  revert inside
  cases decoded : Hex.decode (stripPrefix ['0', 'x'] text.toList) with
  | none =>
      simp only [decoded, Except.mapError] at failed
      cases failed
      exact fromHexError_not_insolvent _
  | some bytes =>
      simp only [decoded] at failed
      split at failed
      · cases failed
      · cases failed
        decide

theorem parseField_of_parseId {text : String} {idHash : Bytes32}
    (parsed : parseId text = .ok idHash) :
    parseField text = .ok idHash := by
  unfold parseId at parsed
  cases field : parseField text with
  | ok value =>
      rw [field] at parsed
      cases parsed
      rfl
  | error err =>
      rw [field] at parsed
      cases parsed

/-! ## Reading a request -/

section Reading

variable {α β ε : Type} {read : α → Except ε β}

theorem exists_mapM_of_forall {items : List α}
    (ok : ∀ item ∈ items, ∃ value, read item = .ok value) : ∃ out, items.mapM read = .ok out := by
  induction items with
  | nil => exact ⟨[], rfl⟩
  | cons item items ih =>
      rcases ok item List.mem_cons_self with ⟨value, first⟩
      rcases ih fun other mem => ok other (List.mem_cons_of_mem _ mem) with ⟨values, rest⟩
      exact ⟨value :: values, by rw [List.mapM_cons, first, rest]; rfl⟩

theorem exists_mem_of_mapM_error {items : List α} {err : ε}
    (failed : items.mapM read = .error err) : ∃ item ∈ items, read item = .error err := by
  induction items with
  | nil => cases failed
  | cons item items ih =>
      rw [List.mapM_cons] at failed
      cases first : read item with
      | error e =>
          simp only [first, bind, Except.bind, Except.error.injEq] at failed
          exact ⟨item, List.mem_cons_self, failed ▸ first⟩
      | ok value =>
          cases rest : items.mapM read with
          | error e =>
              simp only [first, rest, bind, Except.bind, Except.error.injEq] at failed
              rcases ih (failed ▸ rest) with ⟨other, mem, other_failed⟩
              exact ⟨other, List.mem_cons_of_mem _ mem, other_failed⟩
          | ok values => simp [first, rest, bind, Except.bind, pure, Except.pure] at failed

end Reading

/-- A request that reads as amounts and ids, and owes more than it holds. -/
structure InsolventRequest (req : ProveRequest) : Prop where
  ids : ∀ l ∈ req.liabilities, ∃ idHash, parseField l.customerIdHash = .ok idHash
  totals : ∃ held owed : List U64,
    List.Forall₂ (fun (r : Reserve) amount => parseU64 r.balance = .ok amount) req.reserves held ∧
    List.Forall₂ (fun (l : Liability) amount => parseU64 l.balance = .ok amount)
      req.liabilities owed ∧
    (held.map Fin.val).sum < (owed.map Fin.val).sum
  prev : ∃ amount, parseU64 req.prevReserves = .ok amount

/-- A request with as many entries as the circuit has places for. -/
structure ProveRequest.Fits (req : ProveRequest) : Prop where
  reserves_ne : req.reserves ≠ []
  liabilities_ne : req.liabilities ≠ []
  liabilities_le : req.liabilities.length ≤ N
  reserves_le : req.reserves.length ≤ M

/-- No request is turned away before its witness with the word. -/
theorem validate_not_insolvent {req : ProveRequest} {status : Status} (fits : req.Fits)
    (failed : validate req = .error status) : ¬ status.SaysInsolvent := by
  rw [validate, if_neg fits.reserves_ne, if_neg fits.liabilities_ne,
    if_neg (Nat.not_lt.mpr fits.liabilities_le), if_neg (Nat.not_lt.mpr fits.reserves_le)] at failed
  cases ids : req.liabilities.mapM fun l => parseId l.customerIdHash with
  | error e =>
      simp only [ids, bind, Except.bind, Except.error.injEq] at failed
      rcases exists_mem_of_mapM_error ids with ⟨l, _, l_failed⟩
      exact failed ▸ parseId_not_insolvent l_failed
  | ok leafIds =>
  cases balances : req.liabilities.mapM fun l => parseAmount "liability balance" l.balance with
  | error e =>
      simp only [ids, balances, bind, Except.bind, Except.error.injEq] at failed
      rcases exists_mem_of_mapM_error balances with ⟨l, _, l_failed⟩
      exact failed ▸ parseAmount_not_insolvent (by decide) l_failed
  | ok leafBalances =>
  cases figures : req.reserves.mapM fun r => parseAmount "reserve balance" r.balance with
  | error e =>
      simp only [ids, balances, figures, bind, Except.bind, Except.error.injEq] at failed
      rcases exists_mem_of_mapM_error figures with ⟨r, _, r_failed⟩
      exact failed ▸ parseAmount_not_insolvent (by decide) r_failed
  | ok reserves =>
  cases prev : parseAmount "prev_reserves" req.prevReserves with
  | error e =>
      simp only [ids, balances, figures, prev, bind, Except.bind, Except.error.injEq] at failed
      exact failed ▸ parseAmount_not_insolvent (by decide) prev
  | ok prevReserves =>
      simp [ids, balances, figures, prev, bind, Except.bind, pure, Except.pure] at failed

theorem parseAmount_eq_ok_iff {field text : String} {amount : U128} :
    parseAmount field text = .ok amount ↔
      ∃ value : U64, parseU64 text = .ok value ∧
        amount = ⟨value.val, u64_lt_two_pow_128 value⟩ := by
  unfold parseAmount
  cases parseU64 text with
  | ok value => simp [eq_comm]
  | error kind => simp

/-- Amounts read as `u64` and amounts of the witness are the same numbers. -/
theorem sum_eq_of_reads {α : Type} {items : List α} {text : α → String} {field : String}
    {values : List U64} {amounts : List U128}
    (read : List.Forall₂ (fun item value => parseU64 (text item) = .ok value) items values)
    (parsed : List.Forall₂ (fun item amount => parseAmount field (text item) = .ok amount)
      items amounts) : (amounts.map Fin.val).sum = (values.map Fin.val).sum := by
  induction read generalizing amounts with
  | nil =>
      cases parsed
      rfl
  | cons first _ ih =>
      cases parsed with
      | cons first_parsed rest_parsed =>
          rcases parseAmount_eq_ok_iff.mp first_parsed with ⟨value, value_eq, rfl⟩
          cases first.symm.trans value_eq
          have rest := ih rest_parsed
          rw [List.map_cons, List.map_cons, List.sum_cons, List.sum_cons, rest]

/-- The `u64` values behind amounts of the witness. -/
theorem exists_reads {α : Type} {items : List α} {text : α → String} {field : String}
    {amounts : List U128}
    (parsed : List.Forall₂ (fun item amount => parseAmount field (text item) = .ok amount)
      items amounts) :
    ∃ values, List.Forall₂ (fun item value => parseU64 (text item) = .ok value) items values := by
  induction parsed with
  | nil => exact ⟨[], List.Forall₂.nil⟩
  | cons first _ ih =>
      rcases ih with ⟨values, rest⟩
      rcases parseAmount_eq_ok_iff.mp first with ⟨value, value_eq, _⟩
      exact ⟨value :: values, List.Forall₂.cons value_eq rest⟩

/-- A request whose texts read is validated. -/
theorem InsolventRequest.exists_validate {req : ProveRequest} (insolvent : InsolventRequest req)
    (fits : req.Fits) : ∃ w, validate req = .ok w := by
  rcases insolvent.totals with ⟨held, owed, held_read, owed_read, _⟩
  rcases insolvent.prev with ⟨prev, prev_read⟩
  have amount_of_mem {α : Type} {items : List α} {values : List U64} {text : α → String}
      (field : String)
      (read : List.Forall₂ (fun item value => parseU64 (text item) = .ok value) items values) :
      ∀ item ∈ items, ∃ amount, parseAmount field (text item) = .ok amount := by
    intro item mem
    induction read with
    | nil => cases mem
    | cons first _ ih =>
        rcases List.mem_cons.mp mem with rfl | mem
        · exact ⟨_, parseAmount_eq_ok_iff.mpr ⟨_, first, rfl⟩⟩
        · exact ih mem
  have id_of_mem : ∀ l ∈ req.liabilities, ∃ idHash, parseId l.customerIdHash = .ok idHash := by
    intro l mem
    rcases insolvent.ids l mem with ⟨idHash, parsed⟩
    exact ⟨idHash, by rw [parseId, parsed]; rfl⟩
  rcases exists_mapM_of_forall id_of_mem with ⟨leafIds, ids⟩
  rcases exists_mapM_of_forall (amount_of_mem "liability balance" owed_read) with ⟨balances, owes⟩
  rcases exists_mapM_of_forall (amount_of_mem "reserve balance" held_read) with ⟨figures, holds⟩
  have prev_parsed : parseAmount "prev_reserves" req.prevReserves =
      .ok ⟨prev.val, u64_lt_two_pow_128 prev⟩ :=
    parseAmount_eq_ok_iff.mpr ⟨prev, prev_read, rfl⟩
  refine ⟨⟨leafIds, balances, figures, ⟨prev.val, u64_lt_two_pow_128 prev⟩⟩, ?_⟩
  rw [validate, if_neg fits.reserves_ne, if_neg fits.liabilities_ne,
    if_neg (Nat.not_lt.mpr fits.liabilities_le), if_neg (Nat.not_lt.mpr fits.reserves_le), ids,
    owes, holds, prev_parsed]
  rfl

/-- At most eight `u64` amounts fit a `u128`. -/
theorem sum_lt_of_u64 {amounts : List U128} (few : amounts.length ≤ 8)
    (u64 : ∀ amount ∈ amounts, amount.val < 2 ^ 64) : (amounts.map Fin.val).sum < 2 ^ 128 := by
  have bounded : (amounts.map Fin.val).sum ≤ (amounts.map Fin.val).length * 2 ^ 64 := by
    apply List.sum_le_card_nsmul
    intro value mem
    rcases List.mem_map.mp mem with ⟨amount, amount_mem, rfl⟩
    exact Nat.le_of_lt (u64 amount amount_mem)
  rw [List.length_map] at bounded
  omega

/-- A witness that owes more than it holds is refused with the word. -/
theorem assemble_insolvent {hash4 : Hash4} {w : Witness} (validated : w.Validated)
    (insolvent : w.assets < w.liabilities) :
    ∃ message, assemble hash4 w = some (.error (.witnessAssembly ("insolvent: " ++ message))) := by
  have owed_fits : w.liabilities < 2 ^ 128 :=
    sum_lt_of_u64 validated.customers_le validated.balances_u64
  have held_fits : w.assets < 2 ^ 128 := Nat.lt_trans insolvent owed_fits
  have owed : checkedSum w.leafBalances = some ⟨w.liabilities, owed_fits⟩ :=
    checkedSum_eq_some_iff.mpr rfl
  have held : checkedSum w.reserves = some ⟨w.assets, held_fits⟩ :=
    checkedSum_eq_some_iff.mpr rfl
  have less : (⟨w.assets, held_fits⟩ : U128) < ⟨w.liabilities, owed_fits⟩ := insolvent
  refine ⟨"reserves " ++ (toString w.assets ++ (" < liabilities " ++ toString w.liabilities)), ?_⟩
  rw [assemble, if_neg (not_not.mpr validated.length_eq), if_neg validated.nonempty,
    if_neg (Nat.not_lt.mpr validated.customers_le), if_neg (Nat.not_lt.mpr validated.reserves_le),
    owed, held, Option.bind_some, Option.bind_some, if_pos less]
  have split : "insolvent: reserves " = "insolvent: " ++ "reserves " := by decide
  simp only [split, String.append_assoc]

theorem saysInsolvent_of_message (message : String) :
    (provingErrorToStatus (.witnessAssembly ("insolvent: " ++ message))).SaysInsolvent := by
  refine ⟨rfl, ?_⟩
  have spelled : ("witness assembly failed: " ++ ("insolvent: " ++ message)).toList =
      "witness assembly failed: ".toList ++
        ("insolvent".toList ++ (": ".toList ++ message.toList)) := by
    simp [String.toList_append]
  show "insolvent".toList <:+: ("witness assembly failed: " ++ ("insolvent: " ++ message)).toList
  rw [spelled]
  exact List.infix_append' ..

/-- A witness that covers what it owes is not refused with the word, whatever the
tools do. -/
theorem prove_not_insolvent {hash4 : Hash4} {run : ToolRun} {w : Witness} {err : ProvingError}
    (validated : w.Validated) (covered : w.liabilities ≤ w.assets)
    (failed : prove hash4 run.tools w = some (.error err)) :
    ¬ (provingErrorToStatus err).SaysInsolvent := by
  have held_fits : w.assets < 2 ^ 128 := by
    apply sum_lt_of_u64 _ validated.reserves_u64
    exact Nat.le_trans validated.reserves_le (by decide)
  rcases exists_assemble hash4 validated.toChecked covered held_fits with ⟨assembled, accepted, _⟩
  simp only [prove, accepted, Option.map_some, Option.some.injEq] at failed
  cases tooled : run.tools assembled.toml with
  | ok proof => simp [tooled, bind, Except.bind, pure, Except.pure] at failed
  | error tool_err =>
      simp only [tooled, bind, Except.bind, Except.error.injEq] at failed
      rcases ToolRun.tools_error tooled with ⟨message, rfl⟩
      subst failed
      rintro ⟨code, _⟩
      cases code

/-- The service answers that a request is insolvent exactly when it is. -/
theorem serviceProve_saysInsolvent_iff (hash4 : Hash4) (run : ToolRun) {req : ProveRequest}
    (fits : req.Fits) :
    (∃ status, serviceProve hash4 run.tools req = some (.error status) ∧ status.SaysInsolvent) ↔
      InsolventRequest req := by
  unfold serviceProve
  cases checked : validate req with
  | error status =>
      constructor
      · rintro ⟨other, answered, told⟩
        cases answered
        exact absurd told (validate_not_insolvent fits checked)
      · intro insolvent
        rcases insolvent.exists_validate fits with ⟨w, valid⟩
        rw [checked] at valid
        cases valid
  | ok w =>
      have validated := validated_of_validate checked
      rcases validate_eq_ok checked with ⟨ids, owes, holds, prev, _⟩
      constructor
      · rintro ⟨status, answered, told⟩
        rcases Option.map_eq_some_iff.mp answered with ⟨bundle?, proved, status_eq⟩
        have less : w.assets < w.liabilities := by
          by_contra covered
          cases bundle? with
          | ok bundle => cases status_eq
          | error err =>
              cases status_eq
              exact prove_not_insolvent validated (Nat.not_lt.mp covered) proved told
        rcases exists_reads holds with ⟨held, held_read⟩
        rcases exists_reads owes with ⟨owed, owed_read⟩
        rcases parseAmount_eq_ok_iff.mp prev with ⟨amount, amount_read, _⟩
        constructor
        case ids =>
          intro l mem
          rcases List.forall₂_iff_get.mp ids with ⟨length_eq, parsed⟩
          rcases List.mem_iff_get.mp mem with ⟨place, rfl⟩
          exact ⟨_, parseField_of_parseId (parsed place.val place.isLt (length_eq ▸ place.isLt))⟩
        case totals =>
          refine ⟨held, owed, held_read, owed_read, ?_⟩
          rw [← sum_eq_of_reads held_read holds, ← sum_eq_of_reads owed_read owes]
          exact less
        case prev => exact ⟨amount, amount_read⟩
      · intro insolvent
        rcases insolvent.totals with ⟨held, owed, held_read, owed_read, less⟩
        have insolvent_witness : w.assets < w.liabilities := by
          rw [Witness.assets, Witness.liabilities, sum_eq_of_reads held_read holds,
            sum_eq_of_reads owed_read owes]
          exact less
        obtain ⟨message, refused⟩ :
            ∃ message,
              assemble hash4 w = some (.error (.witnessAssembly ("insolvent: " ++ message))) :=
          assemble_insolvent validated insolvent_witness
        refine ⟨_, ?_, saysInsolvent_of_message message⟩
        simp only [prove, refused]
        rfl

end Solva.Prover
