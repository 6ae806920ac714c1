import Mathlib.Tactic.Linarith
import Solva.Circuit.Soundness
import Solva.Contract.Core
import Solva.Transition.Core

/-!
# Registry histories

A history is any sequence of calls with arbitrary callers and arguments, from the
storage of a contract that has not run its constructor. One call either leaves the
storage alone, initialises it, or records one more entry; every statement about
histories is an invariant of these three cases.
-/

namespace Solva.Contract

open Bn254 Circuit Codec Transition

/-! ## Calls -/

inductive Call (Address : Type) where
  | constructor (owner : Address) (vk : List UInt8)
  | publishProof (proof : List UInt8) (pi : PubInputs)
  | getProof (id : U64)
  | getLatestProof
  | verifyInclusion (id : U64) (idHash : Bytes32) (balance : U128) (path : List PathNode)

/-- The value a call returns. -/
inductive Reply where
  | unit
  | id (id : U64)
  | entry (entry : ProofMeta)
  | verdict (included : Bool)
  deriving DecidableEq

def Outcome.map {α β : Type} (f : α → β) : Outcome α → Outcome β
  | ok value => ok (f value)
  | err error => err error
  | trap => trap

/-- A call in its transaction. -/
abbrev Invocation (Address : Type) : Type :=
  Env Address × Call Address

section Histories

variable {Address : Type} (hash4 : Hash4) (verifier : Verifier)

/-- Dispatch a call. -/
def exec (s : Storage Address) (invocation : Invocation Address) :
    Outcome Reply × Storage Address :=
  match invocation.2 with
  | .constructor owner vk =>
      let result := constructor owner vk s
      (result.1.map fun _ => .unit, result.2)
  | .publishProof proof pi =>
      let result := publishProof verifier invocation.1 proof pi s
      (result.1.map .id, result.2)
  | .getProof id => ((getProof id s).map .entry, s)
  | .getLatestProof => ((getLatestProof s).map .entry, s)
  | .verifyInclusion id idHash balance path =>
      ((verifyInclusion hash4 id idHash balance path s).map .verdict, s)

/-- One call of a history. -/
def callStep : Step (Storage Address) (Invocation Address) :=
  ofFunction fun s invocation => (exec hash4 verifier s invocation).2

/-- What a call can do to the storage. -/
inductive Effect (s : Storage Address) (invocation : Invocation Address) :
    Outcome Reply → Storage Address → Prop
  | unchanged {outcome : Outcome Reply} :
      (∀ proof pi id, invocation.2 = .publishProof proof pi → outcome ≠ .ok (.id id)) →
      Effect s invocation outcome s
  | initialised (owner : Address) (vk : List UInt8) :
      invocation.2 = .constructor owner vk → s.owner = none →
      Effect s invocation (.ok .unit)
        { s with owner := some owner, vk := some vk, latestId := some 0 }
  | published (proof : List UInt8) (pi : PubInputs) (id : U64) :
      invocation.2 = .publishProof proof pi →
      Accepted verifier invocation.1 proof pi s → id.val = s.latest.val + 1 →
      Effect s invocation (.ok (.id id)) (record invocation.1 id pi s)

variable {hash4 verifier}

/-- Every call has one of the three effects. -/
theorem exec_effect (hash4 : Hash4) (verifier : Verifier) (s : Storage Address)
    (invocation : Invocation Address) :
    Effect verifier s invocation (exec hash4 verifier s invocation).1
      (exec hash4 verifier s invocation).2 := by
  obtain ⟨env, call⟩ := invocation
  cases call with
  | constructor owner vk =>
      by_cases initialised : s.owner.isSome
      · simp only [exec, constructor, if_pos initialised]
        exact Effect.unchanged fun _ _ _ call_eq => by cases call_eq
      · have uninitialised : s.owner = none := by simpa using initialised
        simp only [exec, constructor, if_neg initialised]
        exact Effect.initialised owner vk rfl uninitialised
  | publishProof proof pi =>
      rcases publishProof_cases verifier env proof pi s with ⟨id, published⟩ | ⟨failed, same⟩
      · obtain ⟨accepted, id_eq, _⟩ := publishProof_eq_ok_iff.mp published
        simp only [exec, published]
        exact Effect.published proof pi id rfl accepted id_eq
      · simp only [exec, same]
        refine Effect.unchanged fun _ _ id _ => ?_
        cases outcome : (publishProof verifier env proof pi s).1 with
        | ok value => exact absurd outcome (failed value)
        | err error => simp [Outcome.map]
        | trap => simp [Outcome.map]
  | getProof id => exact Effect.unchanged fun _ _ _ call_eq => by cases call_eq
  | getLatestProof => exact Effect.unchanged fun _ _ _ call_eq => by cases call_eq
  | verifyInclusion id idHash balance path =>
      exact Effect.unchanged fun _ _ _ call_eq => by cases call_eq

/-! ## Soundness of the verifier -/

/-- The verifier accepts, under a key, only public input words for which the
solvency circuit is satisfiable. -/
def VerifierSound (hash4 : Hash4) (verifier : Verifier) (vk : List UInt8) : Prop :=
  ∀ (proof : List UInt8) (R rootH L RPrev : Bytes32),
    verifier vk proof (R.bytes ++ rootH.bytes ++ L.bytes ++ RPrev.bytes) = some true →
    ∃ priv, main hash4
      ⟨fromBeBytesModOrder R, fromBeBytesModOrder rootH, fromBeBytesModOrder L,
        fromBeBytesModOrder RPrev⟩ priv = .ok ()

theorem toNat_u128Word (value : U128) : (u128Word value).toNat = value.val := by
  rw [u128Word, BytesN.toNat, BigEndian.ofBytes_zero_pad]
  exact BytesN.toNat_ofNat (Nat.lt_of_lt_of_le value.isLt (by decide))

theorem fromBeBytesModOrder_u128Word (value : U128) :
    fromBeBytesModOrder (u128Word value) = frOfU128 value := by
  rw [fromBeBytesModOrder, toNat_u128Word]
  rfl

/-- What the circuit vouches for in accepted public inputs. -/
theorem bounds_of_verified {vk proof : List UInt8} {pi : PubInputs}
    (sound : VerifierSound hash4 verifier vk)
    (verified : verifyUltrahonk verifier vk proof pi = some true) :
    pi.reservesTotal.val < 2 ^ 64 ∧ pi.liabilitiesTotal.val < 2 ^ 64 ∧
      10 * pi.reservesTotal.val ≤ 11 * pi.prevReserves.val := by
  have accepted : verifier vk proof (encodePublicInputs pi) = some true := by
    unfold verifyUltrahonk at verified
    split at verified
    · cases verified
    · exact verified
  obtain ⟨priv, satisfied⟩ := sound proof _ _ _ _ accepted
  obtain ⟨⟨r_lt, l_lt, _⟩, _, _, _, _, _, _, bounded⟩ := main_eq_ok_iff.mp satisfied
  simp only [fromBeBytesModOrder_u128Word, frOfU128_val] at r_lt l_lt bounded
  exact ⟨r_lt, l_lt, bounded⟩

/-! ## Dense ids -/

/-- Ids are dense from one to the last, and nothing exists before the
constructor. -/
structure Dense (s : Storage Address) : Prop where
  uninitialised : s.owner = none → s.vk = none ∧ s.latestId = none
  exists_iff : ∀ k, (s.proofs k).isSome ↔ 1 ≤ k.val ∧ k.val ≤ s.latest.val

/-- What no later call undoes. -/
structure Preserved (s s' : Storage Address) : Prop where
  entry : ∀ k entry, s.proofs k = some entry → s'.proofs k = some entry
  owner : ∀ owner, s.owner = some owner → s'.owner = some owner
  vk : ∀ vk, s.vk = some vk → s'.vk = some vk

theorem Preserved.refl (s : Storage Address) : Preserved s s :=
  ⟨fun _ _ found => found, fun _ found => found, fun _ found => found⟩

theorem Preserved.trans {first second third : Storage Address} (left : Preserved first second)
    (right : Preserved second third) : Preserved first third :=
  ⟨fun k entry found => right.entry k entry (left.entry k entry found),
    fun owner found => right.owner owner (left.owner owner found),
    fun vk found => right.vk vk (left.vk vk found)⟩

@[simp]
theorem latest_record (env : Env Address) (id : U64) (pi : PubInputs) (s : Storage Address) :
    (record env id pi s).latest = id :=
  rfl

theorem proofs_record (env : Env Address) (id : U64) (pi : PubInputs) (s : Storage Address) :
    (record env id pi s).proofs = Function.update s.proofs id
      (some ⟨pi.rootHash, pi.reservesTotal, pi.liabilitiesTotal, env.timestamp⟩) :=
  rfl

namespace Dense

variable {s : Storage Address}

theorem empty : Dense (Storage.empty : Storage Address) where
  uninitialised _ := ⟨rfl, rfl⟩
  exists_iff k := by
    constructor
    · intro some
      cases some
    · rintro ⟨positive, le⟩
      exact absurd (Nat.le_trans positive le) (Nat.not_succ_le_zero 0)

/-- Nothing is recorded past the last id. -/
theorem proofs_eq_none (dense : Dense s) {k : U64} (beyond : s.latest.val < k.val) :
    s.proofs k = none := by
  rw [← Option.not_isSome_iff_eq_none, dense.exists_iff]
  rintro ⟨_, le⟩
  omega

theorem initialise (dense : Dense s) (uninitialised : s.owner = none) (owner : Address)
    (vk : List UInt8) :
    Dense { s with owner := some owner, vk := some vk, latestId := some 0 } where
  uninitialised owner_eq := by cases owner_eq
  exists_iff k := by
    have exists_iff := dense.exists_iff k
    rwa [Storage.latest, (dense.uninitialised uninitialised).2] at exists_iff

theorem record (dense : Dense s) {env : Env Address} {proof : List UInt8} {pi : PubInputs}
    {id : U64} (accepted : Accepted verifier env proof pi s)
    (id_eq : id.val = s.latest.val + 1) : Dense (record env id pi s) where
  uninitialised owner_eq := by
    obtain ⟨owner, some_eq, _⟩ := accepted.authorised
    exact absurd (some_eq.symm.trans owner_eq) (by simp)
  exists_iff k := by
    rw [latest_record]
    by_cases new : k = id
    · subst new
      simp [Contract.record, id_eq]
    · have exists_iff := dense.exists_iff k
      have ne : k.val ≠ id.val := fun equal => new (Fin.ext equal)
      simp only [Contract.record, Function.update_of_ne new, exists_iff]
      omega

/-- One call keeps the ids dense and undoes nothing. -/
theorem exec (dense : Dense s) (hash4 : Hash4) (verifier : Verifier)
    (invocation : Invocation Address) :
    Dense (exec hash4 verifier s invocation).2 ∧
      Preserved s (exec hash4 verifier s invocation).2 := by
  have effect := exec_effect hash4 verifier s invocation
  generalize (Contract.exec hash4 verifier s invocation).2 = next at effect ⊢
  generalize (Contract.exec hash4 verifier s invocation).1 = outcome at effect
  cases effect with
  | unchanged _ => exact ⟨dense, Preserved.refl s⟩
  | initialised owner vk _ uninitialised =>
      refine ⟨dense.initialise uninitialised owner vk, fun _ _ found => found, ?_, ?_⟩
      · intro other found
        exact absurd (uninitialised.symm.trans found) (by simp)
      · intro other found
        exact absurd ((dense.uninitialised uninitialised).1.symm.trans found) (by simp)
  | published proof pi id _ accepted id_eq =>
      refine ⟨dense.record accepted id_eq, ?_, fun _ found => found, fun _ found => found⟩
      intro k entry found
      have old : k ≠ id := by
        rintro rfl
        exact absurd ((dense.proofs_eq_none (by omega)).symm.trans found) (by simp)
      simpa [Contract.record, Function.update_of_ne old] using found

/-- Along any history the ids stay dense and nothing is undone. -/
theorem run (dense : Dense s) {calls : List (Invocation Address)} {s' : Storage Address}
    (run : Run (callStep hash4 verifier) s calls s') : Dense s' ∧ Preserved s s' := by
  refine run.invariant (motive := fun reached => Dense reached ∧ Preserved s reached)
    ⟨dense, Preserved.refl s⟩ fun middle invocation next before last => ?_
  rw [callStep, ofFunction_iff] at last
  obtain ⟨next_dense, undone⟩ := before.1.exec hash4 verifier invocation
  rw [last]
  exact ⟨next_dense, before.2.trans undone⟩

end Dense

/-! ## The entries in order -/

/-- The storage holds these entries, the first under id one. -/
structure Lists (s : Storage Address) (entries : List ProofMeta) : Prop where
  latest : s.latest.val = entries.length
  proofs : ∀ id, s.proofs id = if id = 0 then none else entries[id.val - 1]?

namespace Lists

variable {s : Storage Address} {entries : List ProofMeta}

/-- A publish appends its entry. -/
theorem record (lists : Lists s entries) (env : Env Address) {id : U64} (pi : PubInputs)
    (id_eq : id.val = s.latest.val + 1) :
    Lists (record env id pi s)
      (entries ++ [⟨pi.rootHash, pi.reservesTotal, pi.liabilitiesTotal, env.timestamp⟩]) where
  latest := by rw [latest_record, id_eq, lists.latest, List.length_append, List.length_singleton]
  proofs k := by
    have latest := lists.latest
    have nonzero (other : U64) (positive : other.val ≠ 0) : other ≠ 0 := fun zero =>
      positive (congrArg Fin.val zero)
    by_cases new : k = id
    · subst new
      rw [proofs_record, Function.update_self, if_neg (nonzero k (by omega)),
        show k.val - 1 = entries.length by omega, List.getElem?_concat_length]
    · rw [proofs_record, Function.update_of_ne new, lists.proofs]
      have ne : k.val ≠ id.val := fun equal => new (Fin.ext equal)
      by_cases zero : k = 0
      · rw [if_pos zero, if_pos zero]
      · have positive : k.val ≠ 0 := fun equal => zero (Fin.ext equal)
        rw [if_neg zero, if_neg zero]
        by_cases old : k.val - 1 < entries.length
        · rw [List.getElem?_append_left old]
        · rw [List.getElem?_eq_none (by omega), List.getElem?_eq_none (by simp; omega)]

/-- The entry under the last id. -/
theorem proofs_latest (lists : Lists s entries) :
    s.proofs s.latest = entries.getLast? := by
  rw [lists.proofs, List.getLast?_eq_getElem?, lists.latest]
  by_cases empty : s.latest = 0
  · have nil : entries = [] := by
      rw [← List.length_eq_zero_iff, ← lists.latest, empty]
      rfl
    rw [if_pos empty, nil]
    rfl
  · rw [if_neg empty]

end Lists

/-! ## The invariant -/

/-- What holds of a registry between calls. -/
structure RegistryInvariant (hash4 : Hash4) (verifier : Verifier) (s : Storage Address) : Prop
    extends Dense s where
  solvent : ∀ k entry, s.proofs k = some entry →
    entry.l ≤ entry.r ∧ entry.r.val < 2 ^ 64 ∧ entry.l.val < 2 ^ 64
  growth : ∀ k next entry nextEntry, next.val = k.val + 1 → s.proofs k = some entry →
    s.proofs next = some nextEntry → 10 * nextEntry.r.val ≤ 11 * entry.r.val
  key_sound : ∀ vk, s.vk = some vk → VerifierSound hash4 verifier vk

namespace RegistryInvariant

variable {s : Storage Address} {invocation : Invocation Address}

theorem empty : RegistryInvariant hash4 verifier (Storage.empty : Storage Address) where
  toDense := Dense.empty
  solvent _ _ found := by cases found
  growth _ _ _ _ _ found := by cases found
  key_sound _ found := by cases found

theorem initialise (invariant : RegistryInvariant hash4 verifier s)
    (uninitialised : s.owner = none) (owner : Address) {vk : List UInt8}
    (sound : VerifierSound hash4 verifier vk) :
    RegistryInvariant hash4 verifier
      { s with owner := some owner, vk := some vk, latestId := some 0 } where
  toDense := invariant.toDense.initialise uninitialised owner vk
  solvent := invariant.solvent
  growth := invariant.growth
  key_sound _ vk_eq := by
    cases vk_eq
    exact sound

theorem record (invariant : RegistryInvariant hash4 verifier s) {env : Env Address}
    {proof : List UInt8} {pi : PubInputs} {id : U64}
    (accepted : Accepted verifier env proof pi s) (id_eq : id.val = s.latest.val + 1) :
    RegistryInvariant hash4 verifier (record env id pi s) where
  toDense := invariant.toDense.record accepted id_eq
  solvent k entry found := by
    obtain ⟨vk, vk_eq, verified⟩ := accepted.verified
    obtain ⟨r_lt, l_lt, _⟩ := bounds_of_verified (invariant.key_sound vk vk_eq) verified
    by_cases new : k = id
    · subst new
      simp only [Contract.record, Function.update_self, Option.some.injEq] at found
      subst found
      exact ⟨accepted.solvent, r_lt, l_lt⟩
    · simp only [Contract.record, Function.update_of_ne new] at found
      exact invariant.solvent k entry found
  growth k next entry nextEntry next_eq found nextFound := by
    obtain ⟨vk, vk_eq, verified⟩ := accepted.verified
    obtain ⟨_, _, bounded⟩ := bounds_of_verified (invariant.key_sound vk vk_eq) verified
    have k_old : k ≠ id := by
      rintro rfl
      have beyond : s.proofs next = none := invariant.proofs_eq_none (by omega)
      have next_ne : next ≠ k := fun equal => by
        rw [equal] at next_eq
        omega
      simp [Contract.record, Function.update_of_ne next_ne, beyond] at nextFound
    simp only [Contract.record, Function.update_of_ne k_old] at found
    by_cases new : next = id
    · subst new
      -- the entry before the new one is the last, whose reserves were declared
      have last : k = s.latest := Fin.ext (by omega)
      subst last
      have declared := accepted.baseline
      have not_genesis : s.latest ≠ 0 := by
        intro genesis
        have positive := ((invariant.exists_iff s.latest).mp (by simp [found])).1
        rw [genesis] at positive
        cases positive
      rw [expectedPrev, if_neg not_genesis, found, Option.map_some, Option.some_inj] at declared
      simp only [Contract.record, Function.update_self, Option.some.injEq] at nextFound
      subst nextFound
      rw [declared]
      exact bounded
    · simp only [Contract.record, Function.update_of_ne new] at nextFound
      exact invariant.growth k next entry nextEntry next_eq found nextFound
  key_sound := invariant.key_sound

/-- One call preserves the invariant, if a constructor's key is sound. -/
theorem preserved (invariant : RegistryInvariant hash4 verifier s)
    (sound : ∀ owner vk, invocation.2 = .constructor owner vk →
      VerifierSound hash4 verifier vk) :
    RegistryInvariant hash4 verifier (exec hash4 verifier s invocation).2 := by
  have effect := exec_effect hash4 verifier s invocation
  generalize (exec hash4 verifier s invocation).2 = next at effect ⊢
  generalize (exec hash4 verifier s invocation).1 = outcome at effect
  cases effect with
  | unchanged _ => exact invariant
  | initialised owner vk call_eq uninitialised =>
      exact invariant.initialise uninitialised owner (sound owner vk call_eq)
  | published proof pi id _ accepted id_eq => exact invariant.record accepted id_eq

/-- The growth bound compounds over any number of publishes. -/
theorem cumulative (invariant : RegistryInvariant hash4 verifier s) {i j : U64}
    {first last : ProofMeta} (le : i.val ≤ j.val) (first_eq : s.proofs i = some first)
    (last_eq : s.proofs j = some last) :
    10 ^ (j.val - i.val) * last.r.val ≤ 11 ^ (j.val - i.val) * first.r.val := by
  obtain ⟨distance, distance_eq⟩ := Nat.exists_eq_add_of_le le
  rw [show j.val - i.val = distance by omega]
  induction distance generalizing j last with
  | zero =>
      have same : j = i := Fin.ext (by omega)
      subst same
      rw [first_eq, Option.some_inj] at last_eq
      rw [last_eq, Nat.pow_zero, Nat.pow_zero]
  | succ distance ih =>
      have j_lt := j.isLt
      obtain ⟨_, j_le⟩ := (invariant.exists_iff j).mp (by simp [last_eq])
      obtain ⟨i_ge, _⟩ := (invariant.exists_iff i).mp (by simp [first_eq])
      let before : U64 := ⟨i.val + distance, by omega⟩
      have before_val : before.val = i.val + distance := rfl
      have before_some : (s.proofs before).isSome :=
        (invariant.exists_iff before).mpr (by omega)
      obtain ⟨entry, entry_eq⟩ := Option.isSome_iff_exists.mp before_some
      have grown := ih (by omega) entry_eq before_val
      have bounded := invariant.growth before j entry last (by omega) entry_eq last_eq
      calc 10 ^ (distance + 1) * last.r.val
          = 10 ^ distance * (10 * last.r.val) := by ring
        _ ≤ 10 ^ distance * (11 * entry.r.val) := Nat.mul_le_mul_left _ bounded
        _ = 11 * (10 ^ distance * entry.r.val) := by ring
        _ ≤ 11 * (11 ^ distance * first.r.val) := Nat.mul_le_mul_left _ grown
        _ = 11 ^ (distance + 1) * first.r.val := by ring

end RegistryInvariant

/-! ## Histories -/

/-- The invariant holds after every history whose constructor calls carry sound
keys. -/
theorem invariant_of_run {calls : List (Invocation Address)} {s : Storage Address}
    (sound : ∀ invocation ∈ calls, ∀ owner vk, invocation.2 = .constructor owner vk →
      VerifierSound hash4 verifier vk)
    (reached : Run (callStep hash4 verifier) Storage.empty calls s) :
    RegistryInvariant hash4 verifier s := by
  induction reached with
  | nil => exact RegistryInvariant.empty
  | @snoc calls before next invocation _ last ih =>
      have invariant := ih fun other mem => sound other (List.mem_append_left _ mem)
      rw [callStep, ofFunction_iff] at last
      rw [last]
      exact invariant.preserved (sound invocation (by simp))

/-- What one more call, by anyone and with any arguments, can do to a reached
registry. -/
structure CallFacts (hash4 : Hash4) (verifier : Verifier) (s : Storage Address)
    (invocation : Invocation Address) : Prop where
  /-- An error leaves all storage as it was. -/
  error_unchanged : ∀ error, (exec hash4 verifier s invocation).1 = .err error →
    (exec hash4 verifier s invocation).2 = s
  /-- A successful publish declared the baseline: its own reserves when it is the
  first, else the reserves of the last entry. -/
  baseline : ∀ proof pi id, invocation.2 = .publishProof proof pi →
    (exec hash4 verifier s invocation).1 = .ok (.id id) →
    if s.latest = 0 then pi.prevReserves = pi.reservesTotal
    else ∃ entry, s.proofs s.latest = some entry ∧ pi.prevReserves = entry.r
  /-- The counter moves only in a publish authorised by the owner, by one. -/
  counter : (exec hash4 verifier s invocation).2.latest ≠ s.latest →
    ∃ proof pi owner, invocation.2 = .publishProof proof pi ∧ s.owner = some owner ∧
      invocation.1.auth owner = true ∧
      (exec hash4 verifier s invocation).2.latest.val = s.latest.val + 1
  /-- Its storage slot is otherwise written once, with zero, by the first
  constructor call. -/
  counter_slot : (exec hash4 verifier s invocation).2.latestId ≠ s.latestId →
    (∃ proof pi, invocation.2 = .publishProof proof pi) ∨
      s.owner = none ∧ (∃ owner vk, invocation.2 = .constructor owner vk) ∧
        (exec hash4 verifier s invocation).2.latestId = some 0

theorem callFacts {s : Storage Address} (dense : Dense s) (invocation : Invocation Address) :
    CallFacts hash4 verifier s invocation := by
  have effect := exec_effect hash4 verifier s invocation
  constructor
  all_goals
    generalize (exec hash4 verifier s invocation).2 = next at effect ⊢
    generalize (exec hash4 verifier s invocation).1 = outcome at effect ⊢
  case error_unchanged =>
    intro error outcome_eq
    cases effect with
    | unchanged _ => rfl
    | initialised => cases outcome_eq
    | published => cases outcome_eq
  case baseline =>
    intro proof pi id call_eq outcome_eq
    cases effect with
    | unchanged not_published => exact absurd outcome_eq (not_published proof pi id call_eq)
    | initialised => cases outcome_eq
    | published otherProof otherPi otherId other_eq accepted _ =>
        rw [call_eq, Call.publishProof.injEq] at other_eq
        obtain ⟨rfl, rfl⟩ := other_eq
        have baseline := accepted.baseline
        unfold expectedPrev at baseline
        split
        · rename_i genesis
          rw [if_pos genesis, Option.some_inj] at baseline
          exact baseline.symm
        · rename_i later
          rw [if_neg later, Option.map_eq_some_iff] at baseline
          obtain ⟨entry, found, r_eq⟩ := baseline
          exact ⟨entry, found, r_eq.symm⟩
  case counter =>
    intro moved
    cases effect with
    | unchanged _ => exact absurd rfl moved
    | initialised owner vk _ uninitialised =>
        rw [Storage.latest, Storage.latest, (dense.uninitialised uninitialised).2] at moved
        exact absurd rfl moved
    | published proof pi id call_eq accepted id_eq =>
        obtain ⟨owner, owner_eq, authorised⟩ := accepted.authorised
        exact ⟨proof, pi, owner, call_eq, owner_eq, authorised, id_eq⟩
  case counter_slot =>
    intro moved
    cases effect with
    | unchanged _ => exact absurd rfl moved
    | initialised owner vk call_eq uninitialised =>
        exact Or.inr ⟨uninitialised, ⟨owner, vk, call_eq⟩, rfl⟩
    | published proof pi id call_eq _ _ => exact Or.inl ⟨proof, pi, call_eq⟩

/-- The history invariant of the registry, in every reachable state. -/
structure RegistryHistory (hash4 : Hash4) (verifier : Verifier) (s : Storage Address) :
    Prop where
  /-- `Proof(k)` exists exactly for `1 ≤ k ≤ LatestId`. -/
  exists_iff : ∀ k, (s.proofs k).isSome ↔ 1 ≤ k.val ∧ k.val ≤ s.latest.val
  /-- Every entry is solvent, in `u64` amounts. -/
  solvent : ∀ k entry, s.proofs k = some entry →
    entry.l.val ≤ entry.r.val ∧ entry.r.val < 2 ^ 64 ∧ entry.l.val < 2 ^ 64
  /-- Consecutive entries meet the growth bound. -/
  growth : ∀ k next entry nextEntry, next.val = k.val + 1 → s.proofs k = some entry →
    s.proofs next = some nextEntry → 10 * nextEntry.r.val ≤ 11 * entry.r.val
  /-- And so do any two entries, compounded. -/
  cumulative : ∀ i j first last, i.val < j.val → s.proofs i = some first →
    s.proofs j = some last →
    10 ^ (j.val - i.val) * last.r.val ≤ 11 ^ (j.val - i.val) * first.r.val
  /-- Entries, owner and verifying key survive every continuation. -/
  preserved : ∀ calls s', Run (callStep hash4 verifier) s calls s' → Preserved s s'
  /-- Every further call is accounted for. -/
  call : ∀ invocation, CallFacts hash4 verifier s invocation

/-- Every history of calls leads to a registry with the history invariant. -/
theorem registryHistory {calls : List (Invocation Address)} {s : Storage Address}
    (sound : ∀ invocation ∈ calls, ∀ owner vk, invocation.2 = .constructor owner vk →
      VerifierSound hash4 verifier vk)
    (reached : Run (callStep hash4 verifier) Storage.empty calls s) :
    RegistryHistory hash4 verifier s :=
  have invariant := invariant_of_run sound reached
  { exists_iff := invariant.exists_iff
    solvent := invariant.solvent
    growth := invariant.growth
    cumulative := fun _ _ _ _ lt first_eq last_eq =>
      invariant.cumulative (Nat.le_of_lt lt) first_eq last_eq
    preserved := fun _ _ run => (invariant.toDense.run run).2
    call := callFacts invariant.toDense }

end Histories

/-! ## The sample history -/

/-- The demo public inputs. -/
def sampleInputs : PubInputs :=
  { reservesTotal := 400
    liabilitiesTotal := 360
    rootHash := frToBytes samplePublic.rootH
    prevReserves := 400 }

/-- A verifier that accepts the demo inputs only. -/
def sampleVerifier : Verifier :=
  fun _ _ inputs => some (inputs = encodePublicInputs sampleInputs)

theorem sampleVerifier_sound (vk : List UInt8) :
    VerifierSound Prover.Poseidon2.poseidon2Perm4 sampleVerifier vk := by
  intro proof R rootH L RPrev accepted
  have words_eq : R.bytes ++ rootH.bytes ++ L.bytes ++ RPrev.bytes =
      encodePublicInputs sampleInputs := by
    simpa [sampleVerifier] using accepted
  unfold encodePublicInputs at words_eq
  obtain ⟨words_eq, prev_eq⟩ := BytesN.append_bytes_inj words_eq
  obtain ⟨words_eq, l_eq⟩ := BytesN.append_bytes_inj words_eq
  obtain ⟨words_eq, root_eq⟩ := BytesN.append_bytes_inj words_eq
  rw [BytesN.eq_of_bytes_eq words_eq, root_eq, l_eq, prev_eq]
  refine ⟨samplePrivate, ?_⟩
  rw [fromBeBytesModOrder_u128Word, fromBeBytesModOrder_u128Word, fromBeBytesModOrder_u128Word,
    sampleInputs, fromBeBytesModOrder_frToBytes]
  exact main_sample

/-- The constructor, then one publish by the owner. -/
def sampleCalls : List (Invocation Bool) :=
  [(⟨fun _ => false, 0⟩, .constructor true [1]),
    (⟨fun address => address, 1⟩, .publishProof (List.replicate PROOF_BYTES 0) sampleInputs)]

theorem registryHistory_sample :
    ∃ s : Storage Bool, s.latest = 1 ∧
      RegistryHistory Prover.Poseidon2.poseidon2Perm4 sampleVerifier s := by
  refine ⟨sampleCalls.foldl
    (fun s invocation => (exec Prover.Poseidon2.poseidon2Perm4 sampleVerifier s invocation).2)
    Storage.empty, by decide +kernel, ?_⟩
  exact registryHistory (fun _ _ _ vk _ => sampleVerifier_sound vk)
    ((run_ofFunction_iff _ _ _ _).mpr rfl)

end Solva.Contract
