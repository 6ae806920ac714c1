import Solva.Orchestrator.Consistency
import Solva.Orchestrator.CycleProtocol

/-!
# The latest proof of a tenant

Chain ids are assigned in the order of the publishes, rows are ordered by the beginning
of the transactions that insert them, and a cached id is whatever was written last. The
three agree as long as no run begins to save after a run that published later has begun,
and no run writes its id over one that was published later.
-/

namespace Solva.Orchestrator

open Bn254 Codec Transition

/-! ## What is recorded for a tenant -/

/-- The chain id in a cache entry of a tenant. -/
def cachedChainID (tenantID : String) (redis : Redis) : Option Nat :=
  (redis (latestKey tenantID)).bind fun text => Decimal.unsigned? text.toList

/-- The newest row is the one with the greatest chain id, and the reads answer it. -/
def LatestFollows (tid : Uuid) (tenantID : String) (db : Database) : Prop :=
  tenantProofs tid db ≠ [] →
    ∃ newest ∈ tenantProofs tid db,
      (∀ row ∈ tenantProofs tid db, row.chainProofID ≤ newest.chainProofID) ∧
        getLatestProof tenantID db = .ok (proofFromRow newest) ∧
          latestReserves tenantID db = .ok (fromNumeric newest.r)

/-- Two chain ids and two times in the same order. -/
def SameOrder (id id' : U64) (time time' : Nat) : Prop :=
  (id < id' ∧ time < time') ∨ (id' < id ∧ time' < time)

/-- Where any earlier and later element are in the same order, any two are. -/
theorem SameOrder.of_pairwise {α : Type} {elements : List α} {id : α → U64} {time : α → Nat}
    (order : elements.Pairwise fun a b => SameOrder (id a) (id b) (time a) (time b)) {a b : α}
    (a_mem : a ∈ elements) (b_mem : b ∈ elements) (ne : a ≠ b) :
    SameOrder (id a) (id b) (time a) (time b) := by
  have symm : Std.Symm fun a b => SameOrder (id a) (id b) (time a) (time b) :=
    ⟨fun _ _ => Or.symm⟩
  exact order.forall a_mem b_mem ne

/-- Of rows in the order of their chain ids the newest has the greatest id. -/
theorem latestFollows_of_order {tid : Uuid} {tenantID : String} {db : Database}
    (tenant : toUUID tenantID = .ok tid)
    (order : (tenantProofs tid db).Pairwise fun row row' =>
      SameOrder row.chainProofID row'.chainProofID row.timestamp row'.timestamp) :
    LatestFollows tid tenantID db := by
  intro nonempty
  unfold getLatestProof latestReserves
  simp only [tenant]
  cases found : newestProof tid db with
  | none => exact absurd (List.argmax_eq_none.mp found) nonempty
  | some newest =>
      have newest_mem : newest ∈ tenantProofs tid db := List.argmax_mem found
      refine ⟨newest, newest_mem, fun row mem => ?_, rfl, rfl⟩
      by_cases same : row = newest
      · rw [same]
      rcases SameOrder.of_pairwise order mem newest_mem same with ⟨older, _⟩ | ⟨_, later⟩
      · exact le_of_lt older
      · have le : row.timestamp ≤ newest.timestamp := List.le_of_mem_argmax mem found
        exact absurd later (by omega)

/-- The tenant's contract, rows and cached ids are as before, and the contract has
assigned no fewer ids: all that others may do. -/
structure KeepsLatest {Address : Type} (tid : Uuid) (w w' : World Address) : Prop where
  tenants : w'.db.tenants = w.db.tenants
  rows : tenantProofs tid w'.db = tenantProofs tid w.db
  cached : ∀ tenantID, toUUID tenantID = .ok tid →
    w'.redis (latestKey tenantID) = w.redis (latestKey tenantID)
  latest : ∀ contractID, (w.registries contractID).latest ≤ (w'.registries contractID).latest

/-- The rows of a tenant are in the order of their chain ids, and the contract has
assigned these and the cached ids. -/
structure InOrder {Address : Type} (tid : Uuid) (w : World Address) : Prop where
  rows : (tenantProofs tid w.db).Pairwise fun row row' =>
    SameOrder row.chainProofID row'.chainProofID row.timestamp row'.timestamp
  assigned : ∀ tenantID, toUUID tenantID = .ok tid →
    ∀ contract, resolveTenantContract tenantID w.db = .ok contract →
      (∀ row ∈ tenantProofs tid w.db,
        row.chainProofID ≤ (w.registries contract.contractID).latest) ∧
      ∀ id, cachedChainID tenantID w.redis = some id →
        id ≤ (w.registries contract.contractID).latest.val

/-! ## The runs and their writes -/

/-- A transaction of `SaveProof`: the run, when it began, and what it inserts. -/
structure SaveTx (ι : Type) where
  run : ι
  began : Nat
  proof : Proof
  serializedTree : List UInt8

/-- The world; the runs that published, in order, with their chain ids; the transactions
that began and were not rolled back; the runs whose transaction was committed; and the
runs that wrote their id, with the spelling of the tenant's id they wrote it under. -/
structure LatestState (ι Address : Type) where
  world : World Address
  published : List (ι × U64)
  transactions : List (SaveTx ι)
  saved : List ι
  cached : List (ι × String)

section Steps

variable {ι Address : Type} [DecidableEq ι]

/-- Whether a run published before another. -/
def publishedBefore (published : List (ι × U64)) (j i : ι) : Bool :=
  (published.map Prod.fst).idxOf j < (published.map Prod.fst).idxOf i

/-- The publish that a call reports. -/
def reported (i : ι) : (c : PortCall) → PortReply c → List (ι × U64)
  | .publishProof _ _ _, .ok chainID => [(i, chainID)]
  | _, _ => []

/-- The calls that write what the reads of the latest proof see. -/
def Port.isRecord : Port → Bool
  | .saveProof | .setLatest => true
  | _ => false

/-- A call of a run among others. The effect of `SaveProof` and of `SetLatest` is a move of
its own: it precedes a reply without an error, and may come before or after an error, or
never. -/
inductive LatestStep (d : Deployment Address) (i : ι) :
    (c : PortCall) → LatestState ι Address → PortReply c → LatestState ι Address → Prop
  | other {c : PortCall} {s : LatestState ι Address} {reply : PortReply c} {w : World Address} :
      c.port.isRecord = false → PortStep d c s.world reply w →
      LatestStep d i c s reply
        { s with world := w, published := s.published ++ reported i c reply }
  | saved {s : LatestState ι Address} {proof : Proof} {serializedTree : List UInt8} :
      i ∈ s.saved → LatestStep d i (.saveProof proof serializedTree) s (.ok ()) s
  | cached {s : LatestState ι Address} {tenantID proofID : String} :
      (i, tenantID) ∈ s.cached → LatestStep d i (.setLatest tenantID proofID) s (.ok ()) s
  | failed {c : PortCall} {s : LatestState ι Address} {err : GoError} :
      c.port.isRecord = true → LatestStep d i c s (.error err) s

/-- What happens between calls: others move, a transaction with a proof of the run's
publish begins, is committed or is rolled back, or a cached id is written. The two
conditions say which runs may begin their transaction and write their id. -/
inductive LatestMoves (d : Deployment Address) (tid : Uuid) (tenantID : ι → String)
    (mayBegin mayWrite : ι → LatestState ι Address → Bool) :
    LatestState ι Address → LatestState ι Address → Prop
  | others {s : LatestState ι Address} {w : World Address} :
      KeepsLatest tid s.world w →
      LatestMoves d tid tenantID mayBegin mayWrite s { s with world := w }
  | begins {s : LatestState ι Address} {i : ι} {proof : Proof} {serializedTree : List UInt8} :
      proof.tenantID = tenantID i → (i, proof.chainProofID) ∈ s.published →
      (∀ tx ∈ s.transactions, tx.run ≠ i) → mayBegin i s = true →
      LatestMoves d tid tenantID mayBegin mayWrite s { s with
        transactions := s.transactions ++ [⟨i, s.world.db.clock, proof, serializedTree⟩] }
  | commits {s : LatestState ι Address} {tx : SaveTx ι} {rowID : Uuid} {db : Database} :
      tx ∈ s.transactions → tx.run ∉ s.saved →
      saveProofAt tx.began d.serde.decode rowID tx.proof tx.serializedTree s.world.db =
        (.ok (), db) →
      LatestMoves d tid tenantID mayBegin mayWrite s { s with
        world := { s.world with db := db }
        saved := s.saved ++ [tx.run] }
  | rollsBack {s : LatestState ι Address} {i : ι} :
      i ∉ s.saved →
      LatestMoves d tid tenantID mayBegin mayWrite s { s with
        transactions := s.transactions.filter fun tx => tx.run ≠ i }
  | writes {s : LatestState ι Address} {i : ι} {chainID : U64} :
      (i, chainID) ∈ s.published → mayWrite i s = true →
      LatestMoves d tid tenantID mayBegin mayWrite s { s with
        world := { s.world with
          redis := setLatest (tenantID i) (toString chainID.val) s.world.redis }
        cached := s.cached ++ [(i, tenantID i)] }

/-- A run begins its transaction in its turn: the transactions that are there, rolled back
ones aside, are those of runs that published before, and began at an earlier reading of
the clock. -/
def beginsInTurn (i : ι) (s : LatestState ι Address) : Bool :=
  s.transactions.all fun tx =>
    publishedBefore s.published tx.run i && decide (tx.began < s.world.db.clock)

/-- A run writes its id in its turn: no run that published later has written the key. -/
def writesInTurn (tenantID : ι → String) (i : ι) (s : LatestState ι Address) : Bool :=
  s.cached.all fun entry =>
    entry.2 ≠ tenantID i || entry.1 = i || publishedBefore s.published entry.1 i

/-! ## The invariant -/

/-- A row is that of a committed transaction, or older than every publish and every
transaction. -/
def RowAccounted (s : LatestState ι Address) (row : ProofRow) : Prop :=
  (∃ tx ∈ s.transactions, tx.run ∈ s.saved ∧ row.chainProofID = tx.proof.chainProofID ∧
      row.timestamp = tx.began) ∨
    (∀ entry ∈ s.published, row.chainProofID < entry.2) ∧
      ∀ tx ∈ s.transactions, row.timestamp < tx.began

/-- A cached id is that of a run that wrote this key, or older than every publish. -/
def CacheAccounted (s : LatestState ι Address) (tenantID : String) (id : Nat) : Prop :=
  (∃ entry ∈ s.cached, entry.2 = tenantID ∧
      ∃ chainID, (entry.1, chainID) ∈ s.published ∧ chainID.val = id) ∨
    ∀ entry ∈ s.published, id < entry.2.val

/-- What a run's position says about the publishes. -/
structure Stands (tenantID : String) (s : LatestState ι Address) (i : ι) (q : Progress) :
    Prop where
  sound : q.Sound
  resolved : ∀ contract, q.phase = .preparing (some contract) →
    resolveTenantContract tenantID s.world.db = .ok contract
  unpublished : q.attempted = false → i ∉ s.published.map Prod.fst

/-- An id that was published, saved or cached. -/
def Known (tid : Uuid) (s : LatestState ι Address) (id : Nat) : Prop :=
  (∃ entry ∈ s.published, entry.2.val = id) ∨
    (∃ row ∈ tenantProofs tid s.world.db, row.chainProofID.val = id) ∨
    ∃ tenantID, toUUID tenantID = .ok tid ∧ cachedChainID tenantID s.world.redis = some id

/-- What the publishes, the transactions, the rows and the cached ids have to do with
each other. -/
structure Ledger (tid : Uuid) (s : LatestState ι Address) : Prop where
  nodup : (s.published.map Prod.fst).Nodup
  ascending : s.published.Pairwise fun earlier later => earlier.2 < later.2
  assigned : ∀ tenantID, toUUID tenantID = .ok tid →
    ∀ contract, resolveTenantContract tenantID s.world.db = .ok contract →
      ∀ id, Known tid s id → id ≤ (s.world.registries contract.contractID).latest.val
  begun : ∀ tx ∈ s.transactions,
    toUUID tx.proof.tenantID = .ok tid ∧ (tx.run, tx.proof.chainProofID) ∈ s.published
  transactions : s.transactions.Pairwise fun tx tx' =>
    SameOrder tx.proof.chainProofID tx'.proof.chainProofID tx.began tx'.began
  rows : (tenantProofs tid s.world.db).Pairwise fun row row' =>
    SameOrder row.chainProofID row'.chainProofID row.timestamp row'.timestamp
  saved : ∀ row ∈ tenantProofs tid s.world.db, RowAccounted s row
  cached : ∀ tenantID, toUUID tenantID = .ok tid →
    ∀ id, cachedChainID tenantID s.world.redis = some id → CacheAccounted s tenantID id

/-- Of two publishes the earlier has the smaller chain id. -/
theorem chainID_lt_of_before {published : List (ι × U64)}
    (nodup : (published.map Prod.fst).Nodup)
    (ascending : published.Pairwise fun earlier later => earlier.2 < later.2) {j i : ι}
    {older newer : U64} (j_mem : (j, older) ∈ published) (i_mem : (i, newer) ∈ published)
    (before : publishedBefore published j i = true) : older < newer := by
  rcases List.mem_iff_getElem.mp j_mem with ⟨m, m_lt, at_m⟩
  rcases List.mem_iff_getElem.mp i_mem with ⟨n, n_lt, at_n⟩
  have position {k : Nat} (k_lt : k < published.length) {entry : ι × U64}
      (at_k : published[k] = entry) : (published.map Prod.fst).idxOf entry.1 = k := by
    have k_lt_map : k < (published.map Prod.fst).length := by simpa using k_lt
    have first : (published.map Prod.fst)[k] = entry.1 := by simp [at_k]
    rw [← first]
    exact nodup.idxOf_getElem k _
  simp only [publishedBefore, decide_eq_true_eq] at before
  rw [position m_lt at_m, position n_lt at_n] at before
  have lt := List.pairwise_iff_getElem.mp ascending m n m_lt n_lt before
  rwa [at_m, at_n] at lt

omit [DecidableEq ι] in
/-- A run publishes under one chain id. -/
theorem chainID_eq {published : List (ι × U64)} (nodup : (published.map Prod.fst).Nodup) {i : ι}
    {chainID chainID' : U64} (mem : (i, chainID) ∈ published) (mem' : (i, chainID') ∈ published) :
    chainID = chainID' :=
  congrArg Prod.snd (List.inj_on_of_nodup_map nodup mem mem' rfl)

variable {d : Deployment Address} {tid : Uuid} {s : LatestState ι Address}

theorem resolve_eq_of_tenants (tenantID : String) {w w' : World Address}
    (tenants : w'.db.tenants = w.db.tenants) :
    resolveTenantContract tenantID w'.db = resolveTenantContract tenantID w.db := by
  unfold resolveTenantContract
  rw [tenants]

/-- Two spellings of one id have one contract. -/
theorem resolve_eq_of_alike {tenantID tenantID' : String}
    (alike : toUUID tenantID = toUUID tenantID') (db : Database) :
    resolveTenantContract tenantID db = resolveTenantContract tenantID' db := by
  unfold resolveTenantContract
  rw [alike]

theorem cachedChainID_eq {tenantID : String} {redis redis' : Redis}
    (cached : redis' (latestKey tenantID) = redis (latestKey tenantID)) :
    cachedChainID tenantID redis' = cachedChainID tenantID redis := by
  rw [cachedChainID, cachedChainID, cached]

omit [DecidableEq ι] in
theorem Known.of_keep {w : World Address} (keeps : KeepsLatest tid s.world w) {id : Nat}
    (known : Known tid { s with world := w } id) : Known tid s id := by
  rcases known with published | ⟨row, mem, id_eq⟩ | ⟨tenantID, tenant, cached⟩
  · exact .inl published
  · rw [keeps.rows] at mem
    exact .inr (.inl ⟨row, mem, id_eq⟩)
  · rw [cachedChainID_eq (keeps.cached tenantID tenant)] at cached
    exact .inr (.inr ⟨tenantID, tenant, cached⟩)

omit [DecidableEq ι] in
/-- Others have moved. -/
theorem Ledger.keep {w : World Address} (ledger : Ledger tid s)
    (keeps : KeepsLatest tid s.world w) : Ledger tid { s with world := w } where
  nodup := ledger.nodup
  ascending := ledger.ascending
  assigned tenantID tenant contract resolved id known := by
    rw [resolve_eq_of_tenants _ keeps.tenants] at resolved
    exact (ledger.assigned tenantID tenant contract resolved id (known.of_keep keeps)).trans
      (keeps.latest contract.contractID)
  begun := ledger.begun
  transactions := ledger.transactions
  rows := by
    rw [keeps.rows]
    exact ledger.rows
  saved := by
    rw [keeps.rows]
    exact ledger.saved
  cached tenantID tenant id cached := by
    rw [cachedChainID_eq (keeps.cached tenantID tenant)] at cached
    exact ledger.cached tenantID tenant id cached

omit [DecidableEq ι] in
/-- A run has published under an id that is greater than all known ones. -/
theorem Ledger.publish {i : ι} {chainID : U64} (ledger : Ledger tid s)
    (new : i ∉ s.published.map Prod.fst) (older : ∀ id, Known tid s id → id < chainID.val)
    (assigned : ∀ tenantID, toUUID tenantID = .ok tid →
      ∀ contract, resolveTenantContract tenantID s.world.db = .ok contract →
        chainID ≤ (s.world.registries contract.contractID).latest) :
    Ledger tid { s with published := s.published ++ [(i, chainID)] } where
  nodup := by
    rw [List.map_append]
    exact ledger.nodup.append (List.nodup_singleton _) (by simpa using new)
  ascending := by
    refine List.pairwise_append.mpr
      ⟨ledger.ascending, List.pairwise_singleton _ _, fun entry mem last last_mem => ?_⟩
    rw [List.mem_singleton.mp last_mem]
    exact older _ (.inl ⟨entry, mem, rfl⟩)
  assigned tenantID tenant contract resolved id known := by
    rcases known with ⟨entry, mem, rfl⟩ | known
    · rcases List.mem_append.mp mem with old | last
      · exact ledger.assigned tenantID tenant contract resolved _ (.inl ⟨entry, old, rfl⟩)
      · rw [List.mem_singleton.mp last]
        exact assigned tenantID tenant contract resolved
    · exact ledger.assigned tenantID tenant contract resolved id (.inr known)
  begun tx mem := ⟨(ledger.begun tx mem).1, List.mem_append_left _ (ledger.begun tx mem).2⟩
  transactions := ledger.transactions
  rows := ledger.rows
  saved row mem := by
    rcases ledger.saved row mem with committed | ⟨before, earlier⟩
    · exact .inl committed
    · refine .inr ⟨fun entry entry_mem => ?_, earlier⟩
      rcases List.mem_append.mp entry_mem with old | last
      · exact before entry old
      · rw [List.mem_singleton.mp last]
        exact older _ (.inr (.inl ⟨row, mem, rfl⟩))
  cached tenantID tenant id cached := by
    rcases ledger.cached tenantID tenant id cached with
      ⟨entry, mem, key, found, published, id_eq⟩ | before
    · exact .inl ⟨entry, mem, key, found, List.mem_append_left _ published, id_eq⟩
    · refine .inr fun entry entry_mem => ?_
      rcases List.mem_append.mp entry_mem with old | last
      · exact before entry old
      · rw [List.mem_singleton.mp last]
        exact older id (.inr (.inr ⟨tenantID, tenant, cached⟩))

/-- A run has begun its transaction in its turn. -/
theorem Ledger.begin {i : ι} {proof : Proof} {serializedTree : List UInt8} (ledger : Ledger tid s)
    (tenant : toUUID proof.tenantID = .ok tid) (mem : (i, proof.chainProofID) ∈ s.published)
    (turn : beginsInTurn i s = true) :
    Ledger tid { s with
      transactions := s.transactions ++ [⟨i, s.world.db.clock, proof, serializedTree⟩] } := by
  have before (tx : SaveTx ι) (tx_mem : tx ∈ s.transactions) :
      tx.proof.chainProofID < proof.chainProofID ∧ tx.began < s.world.db.clock := by
    have met := List.all_eq_true.mp turn tx tx_mem
    rw [Bool.and_eq_true, decide_eq_true_eq] at met
    exact ⟨chainID_lt_of_before ledger.nodup ledger.ascending (ledger.begun tx tx_mem).2 mem met.1,
      met.2⟩
  refine { ledger with begun := ?_, transactions := ?_, saved := ?_ }
  · intro tx tx_mem
    rcases List.mem_append.mp tx_mem with old | last
    · exact ledger.begun tx old
    · rw [List.mem_singleton.mp last]
      exact ⟨tenant, mem⟩
  · refine List.pairwise_append.mpr
      ⟨ledger.transactions, List.pairwise_singleton _ _, fun tx tx_mem last last_mem => ?_⟩
    rw [List.mem_singleton.mp last_mem]
    exact .inl (before tx tx_mem)
  · intro row row_mem
    rcases ledger.saved row row_mem with ⟨tx, tx_mem, committed⟩ | ⟨older, earlier⟩
    · exact .inl ⟨tx, List.mem_append_left _ tx_mem, committed⟩
    · refine .inr ⟨older, fun tx tx_mem => ?_⟩
      rcases List.mem_append.mp tx_mem with old | last
      · exact earlier tx old
      · -- a stored row is stamped below the clock
        rw [List.mem_singleton.mp last]
        exact s.world.db.timestamps_lt row (List.mem_filter.mp row_mem).1

omit [DecidableEq ι] in
/-- A row and a transaction that is still open are in the same order. -/
theorem Ledger.order (ledger : Ledger tid s) {row : ProofRow} {tx : SaveTx ι}
    (row_mem : row ∈ tenantProofs tid s.world.db) (tx_mem : tx ∈ s.transactions)
    (unsaved : tx.run ∉ s.saved) :
    SameOrder row.chainProofID tx.proof.chainProofID row.timestamp tx.began := by
  rcases ledger.saved row row_mem with ⟨other, other_mem, other_saved, id_eq, began_eq⟩ |
    ⟨older, earlier⟩
  · have ne : other ≠ tx := fun same => unsaved (same ▸ other_saved)
    rw [id_eq, began_eq]
    exact SameOrder.of_pairwise ledger.transactions other_mem tx_mem ne
  · exact .inl ⟨older _ (ledger.begun tx tx_mem).2, earlier tx tx_mem⟩

omit [DecidableEq ι] in
/-- A transaction was committed. -/
theorem Ledger.commit {tx : SaveTx ι} {rowID : Uuid} {db : Database} (ledger : Ledger tid s)
    (tx_mem : tx ∈ s.transactions) (unsaved : tx.run ∉ s.saved)
    (committed : saveProofAt tx.began d.serde.decode rowID tx.proof tx.serializedTree s.world.db =
      (.ok (), db)) :
    Ledger tid { s with
      world := { s.world with db := db }
      saved := s.saved ++ [tx.run] } := by
  rcases ledger.begun tx tx_mem with ⟨tenant, published⟩
  rcases saveProofAt_cases tx.began d.serde.decode rowID tx.proof tx.serializedTree s.world.db with
    ⟨other, r, l, json, fresh, other_eq, _, _, _, inserted⟩ | ⟨err, failed⟩
  case inr =>
    rw [failed] at committed
    cases committed
  cases Except.ok.inj (tenant.symm.trans other_eq)
  cases inserted.symm.trans committed
  have rows := tenantProofs_insertProof s.world.db tx.began rowID tid fresh tx.proof r l json
  refine { ledger with assigned := ?_, rows := ?_, saved := ?_ }
  · rintro tenantID tenant_eq contract resolved id (known | ⟨row, mem, id_eq⟩ | known)
    · exact ledger.assigned tenantID tenant_eq contract resolved id (.inl known)
    · rw [rows] at mem
      rcases List.mem_append.mp mem with old | last
      · exact ledger.assigned tenantID tenant_eq contract resolved id
          (.inr (.inl ⟨row, old, id_eq⟩))
      · rw [List.mem_singleton.mp last] at id_eq
        exact ledger.assigned tenantID tenant_eq contract resolved id (.inl ⟨_, published, id_eq⟩)
    · exact ledger.assigned tenantID tenant_eq contract resolved id (.inr (.inr known))
  · rw [rows]
    refine List.pairwise_append.mpr
      ⟨ledger.rows, List.pairwise_singleton _ _, fun row mem last last_mem => ?_⟩
    rw [List.mem_singleton.mp last_mem]
    exact ledger.order mem tx_mem unsaved
  · rw [rows]
    intro row mem
    rcases List.mem_append.mp mem with old | last
    · rcases ledger.saved row old with ⟨other, other_mem, other_saved, rest⟩ | older
      · exact .inl ⟨other, other_mem, List.mem_append_left _ other_saved, rest⟩
      · exact .inr older
    · rw [List.mem_singleton.mp last]
      exact .inl ⟨tx, tx_mem, by simp, rfl, rfl⟩

/-- A transaction was rolled back. -/
theorem Ledger.rollBack {i : ι} (ledger : Ledger tid s) (unsaved : i ∉ s.saved) :
    Ledger tid { s with transactions := s.transactions.filter fun tx => tx.run ≠ i } := by
  refine { ledger with begun := ?_, transactions := ledger.transactions.filter _, saved := ?_ }
  · exact fun tx mem => ledger.begun tx (List.mem_of_mem_filter mem)
  · intro row row_mem
    rcases ledger.saved row row_mem with ⟨tx, tx_mem, tx_saved, rest⟩ | ⟨older, earlier⟩
    · have kept : tx.run ≠ i := fun same => unsaved (same ▸ tx_saved)
      exact .inl ⟨tx, List.mem_filter.mpr ⟨tx_mem, by simpa using kept⟩, tx_saved, rest⟩
    · exact .inr ⟨older, fun tx mem => earlier tx (List.mem_of_mem_filter mem)⟩

/-- The cached ids of the one state are not above those of the other. -/
def CachedLe (tid : Uuid) (s next : LatestState ι Address) : Prop :=
  ∀ tenantID, toUUID tenantID = .ok tid → ∀ id, cachedChainID tenantID s.world.redis = some id →
    ∃ id', cachedChainID tenantID next.world.redis = some id' ∧ id ≤ id'

omit [DecidableEq ι] in
theorem CachedLe.of_eq {next : LatestState ι Address}
    (equal : ∀ tenantID, toUUID tenantID = .ok tid →
      next.world.redis (latestKey tenantID) = s.world.redis (latestKey tenantID)) :
    CachedLe tid s next := by
  intro tenantID tenant id cached
  rw [← cachedChainID_eq (equal tenantID tenant)] at cached
  exact ⟨id, cached, le_rfl⟩

omit [DecidableEq ι] in
theorem CachedLe.trans {middle next : LatestState ι Address} (first : CachedLe tid s middle)
    (second : CachedLe tid middle next) : CachedLe tid s next := by
  intro tenantID tenant id cached
  rcases first tenantID tenant id cached with ⟨id', cached', le⟩
  rcases second tenantID tenant id' cached' with ⟨id'', cached'', le'⟩
  exact ⟨id'', cached'', le.trans le'⟩

/-- What the cache holds under a run's key is not above the id of the run, if the run may
write it. -/
theorem CacheAccounted.le {tenantID : ι → String} {i : ι} {chainID : U64} {id : Nat}
    (accounted : CacheAccounted s (tenantID i) id) (ledger : Ledger tid s)
    (mem : (i, chainID) ∈ s.published) (turn : writesInTurn tenantID i s = true) :
    id ≤ chainID.val := by
  rcases accounted with ⟨⟨j, key⟩, entry_mem, key_eq, older, published, rfl⟩ | older
  · have met := List.all_eq_true.mp turn (j, key) entry_mem
    simp only [Bool.or_eq_true, decide_eq_true_eq] at met
    rcases met with (other | own) | before
    · exact absurd key_eq other
    · cases own
      rw [chainID_eq ledger.nodup published mem]
    · exact le_of_lt (chainID_lt_of_before ledger.nodup ledger.ascending published mem before)
  · exact le_of_lt (older _ mem)

/-- A run has written its id in its turn. -/
theorem Ledger.write {tenantID : ι → String} {i : ι} {chainID : U64} (ledger : Ledger tid s)
    (mem : (i, chainID) ∈ s.published) (turn : writesInTurn tenantID i s = true) :
    let next := { s with
      world := { s.world with
        redis := setLatest (tenantID i) (toString chainID.val) s.world.redis }
      cached := s.cached ++ [(i, tenantID i)] }
    Ledger tid next ∧ CachedLe tid s next := by
  intro next
  have written : cachedChainID (tenantID i) next.world.redis = some chainID.val := by
    simp only [next, cachedChainID, setLatest, Function.update_self]
    exact Decimal.unsigned?_repr chainID.val
  have unwritten {other : String} (ne : other ≠ tenantID i) :
      next.world.redis (latestKey other) = s.world.redis (latestKey other) :=
    Function.update_of_ne (by simpa using ne) _ _
  -- an id in the new cache is the one written, or was there before
  have cases_of {other : String} {id : Nat}
      (cached : cachedChainID other next.world.redis = some id) :
      (other = tenantID i ∧ id = chainID.val) ∨ cachedChainID other s.world.redis = some id := by
    by_cases same : other = tenantID i
    · rw [same, written] at cached
      exact .inl ⟨same, (Option.some.inj cached).symm⟩
    · exact .inr ((cachedChainID_eq (unwritten same)).symm.trans cached)
  refine ⟨{ ledger with assigned := ?_, cached := ?_ }, ?_⟩
  · rintro other tenant contract resolved id (known | known | ⟨spelling, spelled, cached⟩)
    · exact ledger.assigned other tenant contract resolved id (.inl known)
    · exact ledger.assigned other tenant contract resolved id (.inr (.inl known))
    · apply ledger.assigned other tenant contract resolved id
      rcases cases_of cached with ⟨_, rfl⟩ | before
      · exact .inl ⟨_, mem, rfl⟩
      · exact .inr (.inr ⟨spelling, spelled, before⟩)
  · intro other tenant id cached
    rcases cases_of cached with ⟨rfl, rfl⟩ | before
    · exact .inl ⟨(i, tenantID i), by simp [next], rfl, chainID, mem, rfl⟩
    · rcases ledger.cached other tenant id before with ⟨entry, entry_mem, rest⟩ | older
      · exact .inl ⟨entry, List.mem_append_left _ entry_mem, rest⟩
      · exact .inr older
  · intro other tenant id cached
    by_cases same : other = tenantID i
    · rw [same] at cached tenant ⊢
      exact ⟨_, written, (ledger.cached _ tenant id cached).le ledger mem turn⟩
    · exact ⟨id, (cachedChainID_eq (unwritten same)).trans cached, le_rfl⟩

/-! ## One step -/

theorem KeepsLatest.refl (tid : Uuid) (w : World Address) : KeepsLatest tid w w :=
  ⟨rfl, rfl, fun _ _ => rfl, fun _ => le_rfl⟩

theorem KeepsLatest.of_quiet {w w' : World Address} (quiet : Quiet w w') :
    KeepsLatest tid w w' where
  tenants := quiet.tenants
  rows := by
    unfold tenantProofs
    rw [quiet.proofs]
  cached tenantID _ := quiet.latest tenantID
  latest contractID := by rw [quiet.registries]

/-- A publish assigns the next id, or changes nothing. -/
theorem publishProof_latest (tid : Uuid) (input : RunInput) (target : TenantContract)
    (proof : List UInt8) (pub : PublicInputs) (w : World Address) :
    KeepsLatest tid w (handlePort d input (.publishProof target proof pub) w).2 ∧
      ∀ chainID, (handlePort d input (.publishProof target proof pub) w).1 = .ok chainID →
        chainID.val = (w.registries target.contractID).latest.val + 1 ∧
          chainID ≤ ((handlePort d input (.publishProof target proof pub) w).2.registries
            target.contractID).latest := by
  rcases publishAtomic_cases d input.ledgerTime target proof pub w with
    ⟨id, pi, publishes, published⟩ | ⟨err, failed⟩
  · rw [handlePort, published]
    refine ⟨⟨rfl, rfl, fun _ _ => rfl, fun contractID => ?_⟩, ?_⟩
    · rw [World.registries_published]
      by_cases same : contractID = target.contractID
      · subst same
        rw [Function.update_self, Contract.latest_record, Fin.le_def, publishes.id_eq]
        exact Nat.le_succ _
      · rw [Function.update_of_ne same]
    · rintro chainID ok
      cases ok
      rw [World.registries_published, Function.update_self, Contract.latest_record]
      exact ⟨publishes.id_eq, le_rfl⟩
  · rw [handlePort, failed]
    exact ⟨KeepsLatest.refl tid w, fun _ ok => by cases ok⟩

/-- The calls that write neither a row nor a cached id. -/
theorem keepsLatest_handlePort (tid : Uuid) (input : RunInput) {c : PortCall}
    (other : c.port.isRecord = false) (w : World Address) :
    KeepsLatest tid w (handlePort d input c w).2 := by
  cases c with
  | saveProof | setLatest => cases other
  | publishProof target proof pub => exact (publishProof_latest tid input target proof pub w).1
  | appendAudit tenant event payload =>
      rcases appendAudit_cases tenant event payload w.db with ⟨tid, _, appended⟩ | ⟨err, failed⟩
      · dsimp only [handlePort, onDatabase]
        rw [appended]
        exact { KeepsLatest.refl _ w with }
      · dsimp only [handlePort, onDatabase]
        rw [failed]
        exact KeepsLatest.refl _ w
  | _ => exact .of_quiet (quiet_handlePort rfl w)

theorem PortStep.keepsLatest (tid : Uuid) {c : PortCall} {w w' : World Address}
    {reply : PortReply c} (step : PortStep d c w reply w') (other : c.port.isRecord = false) :
    KeepsLatest tid w w' := by
  rcases step.world_eq with rfl | ⟨input, rfl⟩
  · exact .refl tid _
  · exact keepsLatest_handlePort tid input other w

omit [DecidableEq ι] in
theorem mem_reported {i : ι} {c : PortCall} {reply : PortReply c} {entry : ι × U64}
    (mem : entry ∈ reported i c reply) : entry.1 = i ∧ isPublish ⟨c, reply⟩ = true := by
  unfold reported at mem
  split at mem
  · rw [List.mem_singleton.mp mem]
    exact ⟨rfl, rfl⟩
  · cases mem

/-- What a step of any kind leaves of the tenants and the publishes. -/
structure Extends (i : ι) (c : PortCall) (reply : PortReply c) (s next : LatestState ι Address) :
    Prop where
  tenants : next.world.db.tenants = s.world.db.tenants
  published : ∀ entry ∈ next.published, entry ∈ s.published ∨
    entry.1 = i ∧ isPublish ⟨c, reply⟩ = true

section Moved

variable {tenantID : String} {key : String} {i : ι} {q q' : Progress} {c : PortCall}
  {reply : PortReply c} {next : LatestState ι Address}

omit [DecidableEq ι] in
theorem LatestStep.extends (step : LatestStep d i c s reply next) : Extends i c reply s next := by
  cases step with
  | other record acted =>
      refine ⟨(acted.keepsLatest (BytesN.ofNat 16 0) record).tenants, fun entry mem => ?_⟩
      exact (List.mem_append.mp mem).imp_right mem_reported
  | saved | cached | failed => exact ⟨rfl, fun _ mem => .inl mem⟩

omit [DecidableEq ι] in
/-- The other runs stand where they stood. -/
theorem Stands.other {j : ι} {standing : Progress} (stands : Stands tenantID s j standing)
    (step : LatestStep d i c s reply next) (ne : j ≠ i) : Stands tenantID next j standing := by
  have kept := step.extends
  refine ⟨stands.sound, fun contract phase => ?_, fun unattempted mem => ?_⟩
  · exact (resolve_eq_of_tenants _ kept.tenants).trans (stands.resolved contract phase)
  · rcases List.mem_map.mp mem with ⟨entry, entry_mem, rfl⟩
    rcases kept.published entry entry_mem with old | ⟨own, _⟩
    · exact stands.unpublished unattempted (List.mem_map_of_mem old)
    · exact ne own

omit [DecidableEq ι] in
/-- The run itself stands where its reply leads. -/
theorem Stands.own (stands : Stands tenantID s i q) (moves : Moves tenantID key q c reply q')
    (step : LatestStep d i c s reply next) : Stands tenantID next i q' := by
  have kept := step.extends
  refine ⟨moves.sound stands.sound, fun contract phase => ?_, fun unattempted mem => ?_⟩
  · rw [resolve_eq_of_tenants tenantID kept.tenants]
    cases moves with
    | resolved =>
        cases phase
        cases step with
        | other record acted =>
            rcases acted.ok with ⟨input, handled⟩
            exact congrArg Prod.fst handled
    | prepared => exact stands.resolved contract phase
    | _ => cases phase
  · rw [moves.attempted_eq, Bool.or_eq_false_iff] at unattempted
    rcases List.mem_map.mp mem with ⟨entry, entry_mem, entry_eq⟩
    rcases kept.published entry entry_mem with old | ⟨_, publishes⟩
    · exact stands.unpublished unattempted.1 (entry_eq ▸ List.mem_map_of_mem old)
    · rw [unattempted.2] at publishes
      cases publishes

omit [DecidableEq ι] in
/-- What a successful publish adds is greater than what was there. -/
theorem Ledger.published {contract : TenantContract} {proof : List UInt8} {pub : PublicInputs}
    {chainID : U64} {w : World Address} (ledger : Ledger tid s)
    (tenant : toUUID tenantID = .ok tid) (new : i ∉ s.published.map Prod.fst)
    (resolved : resolveTenantContract tenantID s.world.db = .ok contract)
    (acted : PortStep d (.publishProof contract proof pub) s.world (.ok chainID) w) :
    Ledger tid { s with world := w, published := s.published ++ [(i, chainID)] } := by
  rcases acted.ok with ⟨input, handled⟩
  rcases Prod.mk.inj handled with ⟨reply_eq, rfl⟩
  rcases publishProof_latest tid input contract proof pub s.world with ⟨keeps, assigned⟩
  rcases assigned chainID reply_eq with ⟨id_eq, chainID_le⟩
  refine Ledger.publish (ledger.keep keeps) new (fun id known => ?_)
    fun other other_tenant found found_eq => ?_
  · have le := ledger.assigned tenantID tenant contract resolved id (known.of_keep keeps)
    omega
  · rw [resolve_eq_of_tenants _ keeps.tenants,
      resolve_eq_of_alike (other_tenant.trans tenant.symm), resolved] at found_eq
    cases found_eq
    exact chainID_le

omit [DecidableEq ι] in
/-- A call keeps the ledger and the cached ids. -/
theorem Ledger.step (ledger : Ledger tid s) (tenant : toUUID tenantID = .ok tid)
    (stands : Stands tenantID s i q) (moves : Moves tenantID key q c reply q')
    (step : LatestStep d i c s reply next) : Ledger tid next ∧ CachedLe tid s next := by
  cases step with
  | saved | cached | failed => exact ⟨ledger, .of_eq fun _ _ => rfl⟩
  | @other _ _ _ w record acted =>
      have keeps := acted.keepsLatest tid record
      refine ⟨?_, .of_eq keeps.cached⟩
      cases moves with
      | published =>
          have unattempted := (stands.sound.preparing _ rfl).2
          exact ledger.published tenant (stands.unpublished unattempted) (stands.resolved _ rfl)
            acted
      | prepared prepares | stopped prepares =>
          cases c <;> first
            | exact prepares.elim
            | simpa [reported] using ledger.keep keeps
      | _ => simpa [reported] using ledger.keep keeps

end Moved

/-! ## Every run -/

/-- Where the runs stand fits what is recorded. -/
def LatestHeld (tid : Uuid) (tenantID : ι → String) (positions : ι → Progress)
    (s : LatestState ι Address) : Prop :=
  (∀ i, Stands (tenantID i) s i (positions i)) ∧ Ledger tid s

omit [DecidableEq ι] in
theorem latestHeld_start {tenantID : ι → String} {w : World Address} (inOrder : InOrder tid w) :
    LatestHeld tid tenantID (fun _ => Progress.start) ⟨w, [], [], [], []⟩ := by
  refine ⟨fun i => ⟨Progress.sound_start, ?_, ?_⟩, ⟨List.nodup_nil, List.Pairwise.nil, ?_, ?_,
    List.Pairwise.nil, inOrder.rows, ?_, ?_⟩⟩
  · simp [Progress.start]
  · simp
  · rintro tenantID tenant contract resolved id
      (published | ⟨row, mem, rfl⟩ | ⟨spelling, spelled, cached⟩)
    · simp at published
    · exact (inOrder.assigned tenantID tenant contract resolved).1 row mem
    · have resolved' := (resolve_eq_of_alike (spelled.trans tenant.symm) w.db).trans resolved
      exact (inOrder.assigned spelling spelled contract resolved').2 id cached
  · simp
  · exact fun _ _ => .inr (by simp)
  · exact fun _ _ _ _ => .inr (by simp)

/-- What happens between calls keeps the ledger, and no cached id decreases. -/
theorem Ledger.moves {tenantID : ι → String} {next : LatestState ι Address}
    (ledger : Ledger tid s) (alike : ∀ i, toUUID (tenantID i) = .ok tid)
    (moved : LatestMoves d tid tenantID beginsInTurn (writesInTurn tenantID) s next) :
    Ledger tid next ∧ CachedLe tid s next ∧
      next.world.db.tenants = s.world.db.tenants ∧ next.published = s.published := by
  cases moved with
  | others keeps => exact ⟨ledger.keep keeps, .of_eq keeps.cached, keeps.tenants, rfl⟩
  | @begins i _ _ tenant_eq mem _ turn =>
      exact ⟨ledger.begin (tenant_eq ▸ alike i) mem turn, .of_eq fun _ _ => rfl, rfl, rfl⟩
  | @commits tx rowID db tx_mem unsaved committed =>
      refine ⟨ledger.commit tx_mem unsaved committed, .of_eq fun _ _ => rfl, ?_, rfl⟩
      rcases saveProofAt_cases tx.began d.serde.decode rowID tx.proof tx.serializedTree s.world.db
        with ⟨_, _, _, _, _, _, _, _, _, inserted⟩ | ⟨err, failed⟩
      · cases inserted.symm.trans committed
        rfl
      · cases failed.symm.trans committed
  | rollsBack unsaved => exact ⟨ledger.rollBack unsaved, .of_eq fun _ _ => rfl, rfl, rfl⟩
  | writes mem turn =>
      rcases ledger.write mem turn with ⟨kept, cachedLe⟩
      exact ⟨kept, cachedLe, rfl, rfl⟩

/-- A step keeps the invariant, and no cached id decreases. -/
theorem LatestHeld.step {tenantID requestKey : ι → String}
    {source target : (ι → Progress) × LatestState ι Address}
    {label : Option (ι × Performed PortCall PortReply)}
    (alike : ∀ i, toUUID (tenantID i) = .ok tid)
    (held : LatestHeld tid tenantID source.1 source.2)
    (step : Protocol.Interleaved (cycleProtocols tenantID requestKey) (LatestStep d)
      (LatestMoves d tid tenantID beginsInTurn (writesInTurn tenantID)) source label target) :
    LatestHeld tid tenantID target.1 target.2 ∧ CachedLe tid source.2 target.2 := by
  rcases held with ⟨stands, ledger⟩
  cases step with
  | @thread positions _ next i c reply allowed acted =>
      have moves := moves_of_allowed allowed reply
      rcases ledger.step (alike i) (stands i) moves acted with ⟨kept, cachedLe⟩
      refine ⟨⟨?_, kept⟩, cachedLe⟩
      apply (Function.forall_update_iff positions fun j => Stands (tenantID j) next j).mpr
      exact ⟨(stands i).own moves acted, fun j ne => (stands j).other acted ne⟩
  | env moved =>
      rcases ledger.moves alike moved with ⟨kept, cachedLe, tenants, published⟩
      refine ⟨⟨fun i => ⟨(stands i).sound, fun contract phase => ?_, fun unattempted => ?_⟩, kept⟩,
        cachedLe⟩
      · exact (resolve_eq_of_tenants _ tenants).trans ((stands i).resolved contract phase)
      · rw [published]
        exact (stands i).unpublished unattempted

/-- In every run of cycles of one tenant whose transactions begin, and whose ids are
written, in the order of the publishes, in every state reached the newest row has the
greatest chain id, and from there on no cached id decreases. -/
theorem latest_follows (d : Deployment Address) (tid : Uuid) (tenantID requestKey : ι → String)
    (alike : ∀ i, toUUID (tenantID i) = .ok tid) (w : World Address) (inOrder : InOrder tid w)
    {taken labels : List (Option (ι × Performed PortCall PortReply))}
    {reached target : Pool ι PortCall PortReply (Result Unit) (LatestState ι Address)}
    (run : Run (Pool.Interleaved (LatestStep d)
      (LatestMoves d tid tenantID beginsInTurn (writesInTurn tenantID)))
      (cyclePool tenantID requestKey ⟨w, [], [], [], []⟩) taken reached)
    (later : Run (Pool.Interleaved (LatestStep d)
      (LatestMoves d tid tenantID beginsInTurn (writesInTurn tenantID))) reached labels target) :
    (∀ spelling, toUUID spelling = .ok tid →
        LatestFollows tid spelling reached.shared.world.db) ∧
      CachedLe tid reached.shared target.shared := by
  rcases Protocol.exists_run (cyclePool_abstracts tenantID requestKey _) run with
    ⟨positions, run, abstracts⟩
  rcases Protocol.exists_run abstracts later with ⟨ends, later, _⟩
  have held : LatestHeld tid tenantID positions reached.shared :=
    run.invariant (motive := fun state => LatestHeld tid tenantID state.1 state.2)
      (latestHeld_start inOrder) fun _ _ _ held step => (held.step alike step).1
  have onwards : LatestHeld tid tenantID ends target.shared ∧
      CachedLe tid reached.shared target.shared := by
    refine later.invariant (motive := fun state => LatestHeld tid tenantID state.1 state.2 ∧
      CachedLe tid reached.shared state.2) ⟨held, .of_eq fun _ _ => rfl⟩ ?_
    rintro source label next ⟨held, cachedLe⟩ step
    rcases held.step alike step with ⟨kept, last⟩
    exact ⟨kept, cachedLe.trans last⟩
  exact ⟨fun spelling tenant => latestFollows_of_order tenant held.2.rows, onwards.2⟩

end Steps

/-! ## Saving and writing out of turn -/

/-- A call that is carried out once its effect is there. -/
def recordedCall (i : Fin 2) (c : PortCall) (s : LatestState (Fin 2) Unit) :
    PortReply c × LatestState (Fin 2) Unit :=
  match c with
  | .saveProof _ _ =>
      if i ∈ s.saved then (.ok (), s)
      else (.error (.plain "context deadline exceeded"), s)
  | .setLatest tenantID _ =>
      if (i, tenantID) ∈ s.cached then (.ok (), s)
      else (.error (.plain "context deadline exceeded"), s)
  | c =>
      let (reply, w) := handlePort sampleDeployment (sampleInput "12" (i.val + 1)) c s.world
      (reply, { s with world := w, published := s.published ++ reported i c reply })

/-- The lock expires. -/
def losesLock (s : LatestState (Fin 2) Unit) : LatestState (Fin 2) Unit :=
  { s with world := { s.world with redis := releaseCycleLock sampleTenantID s.world.redis } }

/-- The clock advances. -/
def ticks (s : LatestState (Fin 2) Unit) : LatestState (Fin 2) Unit :=
  { s with world := { s.world with
      db := { s.world.db with
        clock := s.world.db.clock + 1
        timestamps_lt := fun row mem => Nat.lt_succ_of_lt (s.world.db.timestamps_lt row mem) } } }

/-- The transaction of a run begins, if it may. -/
def begins (mayBegin : Fin 2 → LatestState (Fin 2) Unit → Bool) (i : Fin 2)
    (saves : Proof × List UInt8) (s : LatestState (Fin 2) Unit) : LatestState (Fin 2) Unit :=
  if saves.1.tenantID = sampleTenantID ∧ (i, saves.1.chainProofID) ∈ s.published ∧
      (∀ tx ∈ s.transactions, tx.run ≠ i) ∧ mayBegin i s = true then
    { s with transactions := s.transactions ++ [⟨i, s.world.db.clock, saves.1, saves.2⟩] }
  else s

/-- The transaction of a run is committed. -/
def commits (i : Fin 2) (s : LatestState (Fin 2) Unit) : LatestState (Fin 2) Unit :=
  match s.transactions.find? fun tx => tx.run = i with
  | none => s
  | some tx =>
      if i ∈ s.saved then s
      else
        match saveProofAt tx.began sampleDeployment.serde.decode (BytesN.ofNat 16 (i.val + 1))
          tx.proof tx.serializedTree s.world.db with
        | (.ok (), db) => { s with world := { s.world with db := db }, saved := s.saved ++ [i] }
        | (.error _, _) => s

/-- The id of a run is written, if it may. -/
def writes (mayWrite : Fin 2 → LatestState (Fin 2) Unit → Bool) (i : Fin 2)
    (s : LatestState (Fin 2) Unit) : LatestState (Fin 2) Unit :=
  match s.published.find? fun entry => entry.1 = i with
  | none => s
  | some entry =>
      if mayWrite i s = true then
        { s with
          world := { s.world with
            redis := setLatest sampleTenantID (toString entry.2.val) s.world.redis }
          cached := s.cached ++ [(i, sampleTenantID)] }
      else s

/-- Run 0 publishes, its lock expires, and run 1 publishes. -/
def bothPublish : List (Pool.Turn (Fin 2) PortCall PortReply (LatestState (Fin 2) Unit)) :=
  List.replicate 9 (.thread 0 (recordedCall 0)) ++
    .env losesLock :: List.replicate 9 (.thread 1 (recordedCall 1))

/-- Two runs for one tenant. -/
def twoRuns : Pool (Fin 2) PortCall PortReply (Result Unit) (LatestState (Fin 2) Unit) :=
  cyclePool (fun _ => sampleTenantID) (fun i => toString i.val) ⟨sampleWorld, [], [], [], []⟩

/-- What a run is about to save once both have published. -/
def pendingSave (i : Fin 2) : Proof × List UInt8 :=
  match (twoRuns.after bothPublish).threads i with
  | .call (.saveProof proof tree) _ => (proof, tree)
  | _ => (⟨"", "", 0, "", "", "", [], 0⟩, [])

/-- Both publish; the first of them begins to save, then the second, whose row is
inserted first. -/
def bothSave (mayBegin : Fin 2 → LatestState (Fin 2) Unit → Bool) (first second : Fin 2) :
    List (Pool.Turn (Fin 2) PortCall PortReply (LatestState (Fin 2) Unit)) :=
  bothPublish ++
    [.env (begins mayBegin first (pendingSave first)), .env ticks,
      .env (begins mayBegin second (pendingSave second)), .env (commits second),
      .env (commits first)]

/-- The rest of a run. -/
def records (mayWrite : Fin 2 → LatestState (Fin 2) Unit → Bool) (i : Fin 2) :
    List (Pool.Turn (Fin 2) PortCall PortReply (LatestState (Fin 2) Unit)) :=
  .thread i (recordedCall i) :: .env (writes mayWrite i) ::
    List.replicate 3 (.thread i (recordedCall i))

theorem recordedCall_latestStep (i : Fin 2) (c : PortCall) (s : LatestState (Fin 2) Unit) :
    LatestStep sampleDeployment i c s (recordedCall i c s).1 (recordedCall i c s).2 := by
  cases c with
  | saveProof =>
      unfold recordedCall
      dsimp only
      split
      · rename_i committed
        exact .saved committed
      · exact .failed rfl
  | setLatest =>
      unfold recordedCall
      dsimp only
      split
      · rename_i written
        exact .cached written
      · exact .failed rfl
  | _ => exact .other rfl (.handled (sampleInput "12" (i.val + 1)) _ s.world)

section Admitted

variable {mayBegin mayWrite : Fin 2 → LatestState (Fin 2) Unit → Bool}

/-- The moves of the runs of `twoRuns`. -/
abbrev SampleMoves (mayBegin mayWrite : Fin 2 → LatestState (Fin 2) Unit → Bool) :
    LatestState (Fin 2) Unit → LatestState (Fin 2) Unit → Prop :=
  LatestMoves sampleDeployment sampleTenant (fun _ => sampleTenantID) mayBegin mayWrite

theorem stays_moves (s : LatestState (Fin 2) Unit) : SampleMoves mayBegin mayWrite s s :=
  .others (.refl sampleTenant s.world)

theorem losesLock_moves (s : LatestState (Fin 2) Unit) :
    SampleMoves mayBegin mayWrite s (losesLock s) := by
  refine .others { KeepsLatest.refl sampleTenant s.world with cached := fun tenantID _ => ?_ }
  exact Function.update_of_ne (latestKey_ne_lockKey tenantID sampleTenantID) none _

theorem ticks_moves (s : LatestState (Fin 2) Unit) :
    SampleMoves mayBegin mayWrite s (ticks s) :=
  .others { KeepsLatest.refl sampleTenant s.world with }

theorem begins_moves (i : Fin 2) (saves : Proof × List UInt8) (s : LatestState (Fin 2) Unit) :
    SampleMoves mayBegin mayWrite s (begins mayBegin i saves s) := by
  unfold begins
  split
  · rename_i may
    rcases may with ⟨tenant_eq, mem, new, turn⟩
    exact .begins tenant_eq mem new turn
  · exact stays_moves s

theorem commits_moves (i : Fin 2) (s : LatestState (Fin 2) Unit) :
    SampleMoves mayBegin mayWrite s (commits i s) := by
  unfold commits
  split
  · exact stays_moves s
  · rename_i tx found
    split
    · exact stays_moves s
    · rename_i unsaved
      have run_eq : tx.run = i := by simpa using List.find?_some found
      subst run_eq
      split
      · rename_i committed
        exact .commits (List.mem_of_find?_eq_some found) unsaved committed
      · exact stays_moves s

theorem writes_moves (i : Fin 2) (s : LatestState (Fin 2) Unit) :
    SampleMoves mayBegin mayWrite s (writes mayWrite i s) := by
  unfold writes
  split
  · exact stays_moves s
  · rename_i entry found
    split
    · rename_i turn
      have run_eq : entry.1 = i := by simpa using List.find?_some found
      subst run_eq
      exact .writes (List.mem_of_find?_eq_some found) turn
    · exact stays_moves s

theorem bothSave_admitted (first second : Fin 2) : ∀ turn ∈ bothSave mayBegin first second,
    turn.Admitted (LatestStep sampleDeployment) (SampleMoves mayBegin mayWrite) := by
  intro turn mem
  simp only [bothSave, bothPublish, List.mem_append, List.mem_replicate, List.mem_cons,
    List.not_mem_nil, or_false] at mem
  rcases mem with (⟨_, rfl⟩ | rfl | ⟨_, rfl⟩) | rfl | rfl | rfl | rfl | rfl
  · exact recordedCall_latestStep 0
  · exact losesLock_moves
  · exact recordedCall_latestStep 1
  · exact begins_moves first _
  · exact ticks_moves
  · exact begins_moves second _
  · exact commits_moves second
  · exact commits_moves first

theorem records_admitted (i : Fin 2) : ∀ turn ∈ records mayWrite i,
    turn.Admitted (LatestStep sampleDeployment) (SampleMoves mayBegin mayWrite) := by
  intro turn mem
  simp only [records, List.mem_cons, List.mem_replicate] at mem
  rcases mem with rfl | rfl | ⟨_, rfl⟩
  · exact recordedCall_latestStep i
  · exact writes_moves i
  · exact recordedCall_latestStep i

end Admitted

theorem sampleWorld_inOrder : InOrder sampleTenant sampleWorld :=
  ⟨List.Pairwise.nil, fun _ _ _ _ => ⟨fun _ mem => absurd mem (List.not_mem_nil),
    fun _ cached => by cases cached⟩⟩

/-- Both save in turn. -/
def inTurn : Pool (Fin 2) PortCall PortReply (Result Unit) (LatestState (Fin 2) Unit) :=
  twoRuns.after (bothSave beginsInTurn 0 1)

/-- Then the first writes its id. -/
def inTurnWrote : Pool (Fin 2) PortCall PortReply (Result Unit) (LatestState (Fin 2) Unit) :=
  inTurn.after (records (writesInTurn fun _ => sampleTenantID) 0)

/-- Then the second does. -/
def inTurnDone : Pool (Fin 2) PortCall PortReply (Result Unit) (LatestState (Fin 2) Unit) :=
  inTurnWrote.after (records (writesInTurn fun _ => sampleTenantID) 1)

/-- The rows are inserted in the other order, and the reads still answer the second
publish. -/
theorem latest_follows_sample :
    (tenantProofs sampleTenant inTurn.shared.world.db).map ProofRow.chainProofID = [2, 1] ∧
      cachedChainID sampleTenantID inTurnDone.shared.world.redis = some 2 ∧
      LatestFollows sampleTenant sampleTenantID inTurn.shared.world.db ∧
      CachedLe sampleTenant inTurn.shared inTurnDone.shared := by
  have played : (tenantProofs sampleTenant inTurn.shared.world.db).map
        ProofRow.chainProofID = [2, 1] ∧
      cachedChainID sampleTenantID inTurnDone.shared.world.redis = some 2 := by decide +kernel
  have tenant : toUUID sampleTenantID = .ok sampleTenant := by decide +kernel
  let steps := @Pool.Interleaved (Fin 2) _ PortCall PortReply (Result Unit)
    (LatestState (Fin 2) Unit)
    (LatestStep sampleDeployment)
    (SampleMoves beginsInTurn (writesInTurn fun _ => sampleTenantID))
  have saves : ∃ labels, Run steps twoRuns labels inTurn :=
    Pool.exists_run_after (bothSave_admitted 0 1) twoRuns
  have first : ∃ labels, Run steps inTurn labels inTurnWrote :=
    Pool.exists_run_after (records_admitted 0) inTurn
  have second : ∃ labels, Run steps inTurnWrote labels inTurnDone :=
    Pool.exists_run_after (records_admitted 1) inTurnWrote
  rcases saves with ⟨_, saves⟩
  rcases first with ⟨_, first⟩
  rcases second with ⟨_, second⟩
  rcases latest_follows sampleDeployment sampleTenant (fun _ => sampleTenantID)
    (fun i : Fin 2 => toString i.val) (fun _ => tenant) sampleWorld sampleWorld_inOrder saves
    (first.trans second) with ⟨follows, cachedLe⟩
  exact ⟨played.1, played.2, follows sampleTenantID tenant, cachedLe⟩

/-- A read that answers an id below the greatest. -/
theorem not_latestFollows {tid : Uuid} {tenantID : String} {db : Database}
    (rows : (tenantProofs tid db).map ProofRow.chainProofID = [1, 2])
    (latest : (getLatestProof tenantID db).map Proof.chainProofID = .ok 1) :
    ¬ LatestFollows tid tenantID db := by
  intro follows
  have nonempty : tenantProofs tid db ≠ [] := fun empty => by simp [empty] at rows
  rcases follows nonempty with ⟨newest, _, greatest, read, _⟩
  have newest_id : newest.chainProofID = 1 := by
    rw [read] at latest
    exact Except.ok.inj latest
  have mem : (2 : U64) ∈ (tenantProofs tid db).map ProofRow.chainProofID := by
    rw [rows]
    exact List.mem_cons_of_mem _ (List.mem_singleton_self _)
  rcases List.mem_map.mp mem with ⟨row, row_mem, row_id⟩
  have le := greatest row row_mem
  rw [row_id, newest_id] at le
  exact absurd le (by decide)

/-- Run 1 begins to save before run 0. -/
def outOfTurn : Pool (Fin 2) PortCall PortReply (Result Unit) (LatestState (Fin 2) Unit) :=
  twoRuns.after (bothSave (fun _ _ => true) 1 0)

/-- Run 1 writes its id. -/
def oneWrote : Pool (Fin 2) PortCall PortReply (Result Unit) (LatestState (Fin 2) Unit) :=
  outOfTurn.after (records (fun _ _ => true) 1)

/-- Then run 0 writes its own. -/
def bothWrote : Pool (Fin 2) PortCall PortReply (Result Unit) (LatestState (Fin 2) Unit) :=
  oneWrote.after (records (fun _ _ => true) 0)

/-- Run 1 saves and writes out of turn: the newest row is the older proof although the
rows were inserted in the order of the publishes, and the cached id falls from 2 to 1. -/
theorem latest_overwritten :
    (cachedChainID sampleTenantID oneWrote.shared.world.redis = some 2 ∧
        cachedChainID sampleTenantID bothWrote.shared.world.redis = some 1) ∧
      ¬ ∀ labels target, Run (Pool.Interleaved (LatestStep sampleDeployment)
          (SampleMoves (fun _ _ => true) (fun _ _ => true))) twoRuns labels target →
        LatestFollows sampleTenant sampleTenantID target.shared.world.db := by
  have written : cachedChainID sampleTenantID oneWrote.shared.world.redis = some 2 ∧
      cachedChainID sampleTenantID bothWrote.shared.world.redis = some 1 := by decide +kernel
  have played : (tenantProofs sampleTenant outOfTurn.shared.world.db).map
        ProofRow.chainProofID = [1, 2] ∧
      (getLatestProof sampleTenantID outOfTurn.shared.world.db).map
        Proof.chainProofID = .ok 1 := by decide +kernel
  refine ⟨written, fun follows => ?_⟩
  rcases Pool.exists_run_after (bothSave_admitted 1 0) twoRuns with ⟨labels, run⟩
  exact not_latestFollows played.1 played.2 (follows labels _ run)

end Solva.Orchestrator
