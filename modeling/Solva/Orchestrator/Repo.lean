import Mathlib.Data.List.Induction
import Mathlib.Data.List.MinMax
import Solva.Codec.Json
import Solva.Orchestrator.Entity

/-!
# The database and the cache

The Postgres adapter over the tables of the migrations, and the Redis cache. The
tables carry the constraints of the schema, so that a row that Postgres refuses
cannot be stored. A write returns its error together with the tables it leaves.
-/

namespace Solva.Orchestrator

open Bn254 Codec

/-! ## Tables -/

structure TenantRow where
  id : Uuid
  contractID : Option String
  network : String

/-- A liability joined with its customer. -/
structure LiabilityRow where
  tenantID : Uuid
  idHash : String
  balance : Int

structure ProofRow where
  id : Uuid
  tenantID : Uuid
  /-- A `bigint`: the id's 64 bits. -/
  chainProofID : U64
  rootH : String
  r : Int
  l : Int
  timestamp : Nat
  proofBlob : List UInt8
  deriving DecidableEq

structure MerkleTreeRow where
  proofID : Uuid
  serialized : Json

structure AuditRow where
  tenantID : Uuid
  event : String
  payload : Json

structure CycleRunRow where
  tenantID : Uuid
  requestKey : String
  deriving DecidableEq

/-- The tables with the constraints that Postgres keeps on them. `clock` is what `now()`
reads in a transaction that begins next; the database clock does not go back. A proof is
stamped with the beginning of its transaction, so that of two that overlap the one that
inserts first need not have the earlier stamp. -/
structure Database where
  tenants : List TenantRow
  liabilities : List LiabilityRow
  proofs : List ProofRow
  merkleTrees : List MerkleTreeRow
  auditLog : List AuditRow
  cycleRuns : List CycleRunRow
  clock : Nat
  proofs_primary : (proofs.map ProofRow.id).Nodup
  trees_unique : (merkleTrees.map MerkleTreeRow.proofID).Nodup
  trees_reference : ∀ tree ∈ merkleTrees, tree.proofID ∈ proofs.map ProofRow.id
  cycleRuns_unique : cycleRuns.Nodup
  timestamps_lt : ∀ row ∈ proofs, row.timestamp < clock

namespace Database

/-- Whether a `tenant_id` references a tenant. -/
def hasTenant (db : Database) (tid : Uuid) : Bool :=
  db.tenants.any fun row => row.id = tid

end Database

/-! ## Errors of the database -/

def foreignKeyViolation (table : String) : GoError :=
  .plain ("ERROR: insert or update on table \"" ++ table ++
    "\" violates foreign key constraint \"" ++ table ++ "_tenant_id_fkey\" (SQLSTATE 23503)")

def uniqueViolation (table : String) : GoError :=
  .plain ("ERROR: duplicate key value violates unique constraint \"" ++ table ++
    "_pkey\" (SQLSTATE 23505)")

def numericOverflow : GoError :=
  .plain "ERROR: numeric field overflow (SQLSTATE 22003)"

def invalidJson : GoError :=
  .plain "ERROR: invalid input syntax for type json (SQLSTATE 22P02)"

/-! ## Reads -/

/-- `proofFromRow`. -/
def proofFromRow (row : ProofRow) : Proof :=
  { id := fromUUID row.id
    tenantID := fromUUID row.tenantID
    chainProofID := row.chainProofID
    rootHash := row.rootH
    reservesTotal := fromNumeric row.r
    liabilitiesTotal := fromNumeric row.l
    blob := row.proofBlob
    publishedAt := row.timestamp }

/-- `Postgres.GetProof`. -/
def getProof (id : String) (db : Database) : Result Proof :=
  match toUUID id with
  | .error err => .error err
  | .ok pid =>
      match db.proofs.find? fun row => row.id = pid with
      | some row => .ok (proofFromRow row)
      | none => .error (.sentinel .notFound)

/-- The newest row of a tenant: `ORDER BY "timestamp" DESC LIMIT 1`. -/
def newestProof (tid : Uuid) (db : Database) : Option ProofRow :=
  (db.proofs.filter fun row => row.tenantID = tid).argmax ProofRow.timestamp

/-- `Postgres.GetLatestProof`. -/
def getLatestProof (tenantID : String) (db : Database) : Result Proof :=
  match toUUID tenantID with
  | .error err => .error err
  | .ok tid =>
      match newestProof tid db with
      | some row => .ok (proofFromRow row)
      | none => .error (.sentinel .notFound)

/-- `Postgres.LatestReserves`. -/
def latestReserves (tenantID : String) (db : Database) : Result String :=
  match toUUID tenantID with
  | .error err => .error err
  | .ok tid =>
      match newestProof tid db with
      | some row => .ok (fromNumeric row.r)
      | none => .ok "0"

/-- `Postgres.ResolveTenantContract`. -/
def resolveTenantContract (tenantID : String) (db : Database) : Result TenantContract :=
  match toUUID tenantID with
  | .error err => .error err
  | .ok tid =>
      match db.tenants.find? fun row => row.id = tid with
      | none => .error (.sentinel .notFound)
      | some row =>
          match row.contractID with
          | none => .error (.sentinel .tenantNotProvisioned)
          | some contractID =>
              if contractID = "" then .error (.sentinel .tenantNotProvisioned)
              else .ok ⟨contractID, row.network⟩

/-- `Postgres.LoadLiabilities`. -/
def loadLiabilities (tenantID : String) (db : Database) : Result (List Liability) :=
  match toUUID tenantID with
  | .error err => .error err
  | .ok tid =>
      .ok ((db.liabilities.filter fun row => row.tenantID = tid).map fun row =>
        ⟨row.idHash, fromNumeric row.balance⟩)

/-! ## Writes -/

/-- `Postgres.ClaimCycle`. -/
def claimCycle (tenantID requestKey : String) (db : Database) : Result Bool × Database :=
  match toUUID tenantID with
  | .error err => (.error err, db)
  | .ok tid =>
      if db.hasTenant tid then
        if claimed : ⟨tid, requestKey⟩ ∈ db.cycleRuns then (.ok false, db)
        else
          (.ok true, { db with
            cycleRuns := db.cycleRuns ++ [⟨tid, requestKey⟩]
            cycleRuns_unique :=
              db.cycleRuns_unique.append (List.nodup_singleton _) (by simpa using claimed) })
      else (.error (.wrap "claim cycle" (foreignKeyViolation "cycle_runs")), db)

/-- `CreateAuditLog`. -/
def createAuditLog (row : AuditRow) (db : Database) : Result Unit × Database :=
  if db.hasTenant row.tenantID then (.ok (), { db with auditLog := db.auditLog ++ [row] })
  else (.error (foreignKeyViolation "audit_log"), db)

/-- The JSON of a snapshot. -/
def snapshotPayload (snap : ReserveSnapshot) : Json :=
  .object [("TenantID", .string snap.tenantID),
    ("Reserves", .array (snap.reserves.map fun r =>
      .object [("SourceID", .string r.sourceID), ("Balance", .string r.balance),
        ("Currency", .string r.currency)])),
    ("CapturedAt", .string snap.capturedAt)]

/-- Put a context in front of a write's error. -/
def wrapWrite {α : Type} (context : String) (write : Result α × Database) :
    Result α × Database :=
  (write.1.mapError (GoError.wrap context), write.2)

/-- `Postgres.SaveSnapshot`. -/
def saveSnapshot (snap : ReserveSnapshot) (db : Database) : Result Unit × Database :=
  match toUUID snap.tenantID with
  | .error err => (.error err, db)
  | .ok tid =>
      wrapWrite "save snapshot"
        (createAuditLog ⟨tid, "reserve_snapshot", snapshotPayload snap⟩ db)

/-- `Postgres.AppendAudit`. -/
def appendAudit (tenantID event : String) (payload : Json) (db : Database) :
    Result Unit × Database :=
  match toUUID tenantID with
  | .error err => (.error err, db)
  | .ok tid => wrapWrite "append audit" (createAuditLog ⟨tid, event, payload⟩ db)

/-- The bound of `numeric(38, 0)`. -/
def numericLimit : Nat :=
  10 ^ 38

namespace Database

/-- The tables after inserting a proof and its tree under a fresh id, in a transaction
that began at the given time. -/
def insertProof (db : Database) (began : Nat) (id tid : Uuid)
    (fresh : id ∉ db.proofs.map ProofRow.id) (proof : Proof) (r l : Int) (tree : Json) :
    Database :=
  { db with
    proofs := db.proofs ++
      [⟨id, tid, proof.chainProofID, proof.rootHash, r, l, began, proof.blob⟩]
    merkleTrees := db.merkleTrees ++ [⟨id, tree⟩]
    clock := max db.clock (began + 1)
    proofs_primary := by
      rw [List.map_append]
      exact db.proofs_primary.append (List.nodup_singleton _) (by simpa using fresh)
    trees_unique := by
      rw [List.map_append]
      refine db.trees_unique.append (List.nodup_singleton _) ?_
      simp only [List.map_cons, List.map_nil, List.disjoint_singleton]
      intro mem
      obtain ⟨tree, tree_mem, id_eq⟩ := List.mem_map.mp mem
      exact fresh (id_eq ▸ db.trees_reference tree tree_mem)
    trees_reference := by
      intro row mem
      rw [List.map_append, List.mem_append]
      rcases List.mem_append.mp mem with old | new
      · exact Or.inl (db.trees_reference row old)
      · rw [List.mem_singleton.mp new]
        exact Or.inr (List.mem_singleton.mpr rfl)
    timestamps_lt := by
      intro row mem
      rcases List.mem_append.mp mem with old | new
      · exact lt_max_of_lt_left (db.timestamps_lt row old)
      · rw [List.mem_singleton.mp new]
        exact lt_max_of_lt_right (Nat.lt_succ_self began) }

end Database

/-- The transaction of `SaveProof`. `began` is when it began, `id` the row's random id
and `jsonb` the database's JSON reader. A failing statement rolls everything back. -/
def insertProofTx (began : Nat) (jsonb : List UInt8 → Option Json) (id tid : Uuid) (proof : Proof)
    (r l : Int) (serializedTree : List UInt8) (db : Database) : Result Unit × Database :=
  if ¬ db.hasTenant tid then
    (.error (.wrap "insert proof" (foreignKeyViolation "proofs")), db)
  else if numericLimit ≤ r.natAbs ∨ numericLimit ≤ l.natAbs then
    (.error (.wrap "insert proof" numericOverflow), db)
  else if fresh : id ∉ db.proofs.map ProofRow.id then
    match jsonb serializedTree with
    | none => (.error (.wrap "insert merkle tree" invalidJson), db)
    | some tree => (.ok (), db.insertProof began id tid fresh proof r l tree)
  else (.error (.wrap "insert proof" (uniqueViolation "proofs")), db)

/-- `Postgres.SaveProof` with a transaction that began at the given time. -/
def saveProofAt (began : Nat) (jsonb : List UInt8 → Option Json) (id : Uuid) (proof : Proof)
    (serializedTree : List UInt8) (db : Database) : Result Unit × Database :=
  match toUUID proof.tenantID with
  | .error err => (.error err, db)
  | .ok tid =>
      match toNumeric proof.reservesTotal with
      | .error err => (.error err, db)
      | .ok r =>
          match toNumeric proof.liabilitiesTotal with
          | .error err => (.error err, db)
          | .ok l => insertProofTx began jsonb id tid proof r l serializedTree db

/-- `Postgres.SaveProof` with nothing between the beginning of its transaction and the
insertion. -/
def saveProof (jsonb : List UInt8 → Option Json) (id : Uuid) (proof : Proof)
    (serializedTree : List UInt8) (db : Database) : Result Unit × Database :=
  saveProofAt db.clock jsonb id proof serializedTree db

/-! ## The cache -/

/-- Redis, as far as the cache uses it: plain keys with text values. -/
abbrev Redis : Type :=
  String → Option String

/-- `latestKey`. -/
def latestKey (tenantID : String) : String :=
  "solva:latest:" ++ tenantID

/-- `lockKey`. -/
def lockKey (tenantID : String) : String :=
  "solva:cyclelock:" ++ tenantID

/-- `RedisCache.SetLatest`. -/
def setLatest (tenantID proofID : String) (redis : Redis) : Redis :=
  Function.update redis (latestKey tenantID) (some proofID)

/-- `RedisCache.GetLatest`; a miss is the empty string. -/
def getLatest (tenantID : String) (redis : Redis) : String :=
  (redis (latestKey tenantID)).getD ""

/-- `RedisCache.AcquireCycleLock`: `SET NX`. -/
def acquireCycleLock (tenantID : String) (redis : Redis) : Bool × Redis :=
  if (redis (lockKey tenantID)).isSome then (false, redis)
  else (true, Function.update redis (lockKey tenantID) (some "1"))

/-- `RedisCache.ReleaseCycleLock`. -/
def releaseCycleLock (tenantID : String) (redis : Redis) : Redis :=
  Function.update redis (lockKey tenantID) none

/-! ## What the operations do -/

/-- Of rows in the order of their timestamps the newest is the last. -/
theorem argmax_eq_getLast? {rows : List ProofRow}
    (sorted : rows.Pairwise fun earlier later => earlier.timestamp < later.timestamp) :
    rows.argmax ProofRow.timestamp = rows.getLast? := by
  induction rows using List.reverseRecOn with
  | nil => rfl
  | append_singleton rows row ih =>
      obtain ⟨before, _, newer⟩ := List.pairwise_append.mp sorted
      rw [List.argmax_concat, ih before, List.getLast?_concat]
      cases last : rows.getLast? with
      | none => rfl
      | some found =>
          exact if_pos (newer found (List.mem_of_getLast? last) row (List.mem_singleton_self row))

/-- The rows of a tenant in the order of their insertion. -/
def tenantProofs (tid : Uuid) (db : Database) : List ProofRow :=
  db.proofs.filter fun row => row.tenantID = tid

theorem newestProof_eq_getLast? {tid : Uuid} {db : Database}
    (sorted : (tenantProofs tid db).Pairwise fun earlier later =>
      earlier.timestamp < later.timestamp) :
    newestProof tid db = (tenantProofs tid db).getLast? :=
  argmax_eq_getLast? sorted

theorem tenantProofs_insertProof (db : Database) (began : Nat) (id tid : Uuid)
    (fresh : id ∉ db.proofs.map ProofRow.id) (proof : Proof) (r l : Int) (tree : Json) :
    tenantProofs tid (db.insertProof began id tid fresh proof r l tree) = tenantProofs tid db ++
      [⟨id, tid, proof.chainProofID, proof.rootHash, r, l, began, proof.blob⟩] := by
  simp [tenantProofs, Database.insertProof]

theorem append_right_inj {pre a b : String} : pre ++ a = pre ++ b ↔ a = b := by
  rw [← String.toList_inj, String.toList_append, String.toList_append, List.append_cancel_left_eq,
    String.toList_inj]

@[simp]
theorem latestKey_inj {a b : String} : latestKey a = latestKey b ↔ a = b :=
  append_right_inj

@[simp]
theorem lockKey_inj {a b : String} : lockKey a = lockKey b ↔ a = b :=
  append_right_inj

/-- The two kinds of key part at their seventh character. -/
@[simp]
theorem latestKey_ne_lockKey (a b : String) : latestKey a ≠ lockKey b := by
  intro equal
  have seventh : ("solva:latest:" ++ a).toList[6]? = ("solva:cyclelock:" ++ b).toList[6]? :=
    congrArg (fun key : String => key.toList[6]?) equal
  rw [String.toList_append, String.toList_append, List.getElem?_append_left (by decide),
    List.getElem?_append_left (by decide)] at seventh
  exact absurd seventh (by decide)

/-- `SaveProof` inserts both rows or fails without a trace. -/
theorem saveProofAt_cases (began : Nat) (jsonb : List UInt8 → Option Json) (id : Uuid)
    (proof : Proof) (serializedTree : List UInt8) (db : Database) :
    (∃ tid r l tree, ∃ fresh : id ∉ db.proofs.map ProofRow.id,
        toUUID proof.tenantID = .ok tid ∧ toNumeric proof.reservesTotal = .ok r ∧
        toNumeric proof.liabilitiesTotal = .ok l ∧ jsonb serializedTree = some tree ∧
        saveProofAt began jsonb id proof serializedTree db =
          (.ok (), db.insertProof began id tid fresh proof r l tree)) ∨
      ∃ err, saveProofAt began jsonb id proof serializedTree db = (.error err, db) := by
  unfold saveProofAt insertProofTx
  cases tenant : toUUID proof.tenantID with
  | error err => exact Or.inr ⟨err, rfl⟩
  | ok tid =>
  cases reserves : toNumeric proof.reservesTotal with
  | error err => exact Or.inr ⟨err, rfl⟩
  | ok r =>
  cases liabilities : toNumeric proof.liabilitiesTotal with
  | error err => exact Or.inr ⟨err, rfl⟩
  | ok l =>
  dsimp only
  split
  · exact Or.inr ⟨_, rfl⟩
  split
  · exact Or.inr ⟨_, rfl⟩
  split
  · rename_i fresh
    cases parsed : jsonb serializedTree with
    | none => exact Or.inr ⟨_, rfl⟩
    | some tree => exact Or.inl ⟨tid, r, l, tree, fresh, rfl, rfl, rfl, rfl, rfl⟩
  · exact Or.inr ⟨_, rfl⟩

theorem saveProof_cases (jsonb : List UInt8 → Option Json) (id : Uuid) (proof : Proof)
    (serializedTree : List UInt8) (db : Database) :
    (∃ tid r l tree, ∃ fresh : id ∉ db.proofs.map ProofRow.id,
        toUUID proof.tenantID = .ok tid ∧ toNumeric proof.reservesTotal = .ok r ∧
        toNumeric proof.liabilitiesTotal = .ok l ∧ jsonb serializedTree = some tree ∧
        saveProof jsonb id proof serializedTree db =
          (.ok (), db.insertProof db.clock id tid fresh proof r l tree)) ∨
      ∃ err, saveProof jsonb id proof serializedTree db = (.error err, db) :=
  saveProofAt_cases db.clock jsonb id proof serializedTree db

/-- `SaveProof` succeeds for a known tenant, totals in range, a fresh id and a tree
that the database reads. -/
theorem saveProof_eq_ok {jsonb : List UInt8 → Option Json} {id tid : Uuid} {proof : Proof}
    {serializedTree : List UInt8} {db : Database} {r l : Int} {tree : Json}
    (tenant : toUUID proof.tenantID = .ok tid) (known : db.hasTenant tid)
    (reserves : toNumeric proof.reservesTotal = .ok r)
    (liabilities : toNumeric proof.liabilitiesTotal = .ok l)
    (r_lt : r.natAbs < numericLimit) (l_lt : l.natAbs < numericLimit)
    (fresh : id ∉ db.proofs.map ProofRow.id) (parsed : jsonb serializedTree = some tree) :
    saveProof jsonb id proof serializedTree db =
      (.ok (), db.insertProof db.clock id tid fresh proof r l tree) := by
  have in_range : ¬(numericLimit ≤ r.natAbs ∨ numericLimit ≤ l.natAbs) := by omega
  simp only [saveProof, saveProofAt, tenant, reserves, liabilities, insertProofTx, known, not_true,
    if_false, in_range, dif_pos fresh, parsed]

theorem createAuditLog_cases (row : AuditRow) (db : Database) :
    createAuditLog row db = (.ok (), { db with auditLog := db.auditLog ++ [row] }) ∨
      ∃ err, createAuditLog row db = (.error err, db) := by
  unfold createAuditLog
  split
  · exact Or.inl rfl
  · exact Or.inr ⟨_, rfl⟩

/-- `AppendAudit` appends its row or fails without a trace. -/
theorem appendAudit_cases (tenantID event : String) (payload : Json) (db : Database) :
    (∃ tid, toUUID tenantID = .ok tid ∧ appendAudit tenantID event payload db =
        (.ok (), { db with auditLog := db.auditLog ++ [⟨tid, event, payload⟩] })) ∨
      ∃ err, appendAudit tenantID event payload db = (.error err, db) := by
  unfold appendAudit
  cases tenant : toUUID tenantID with
  | error err => exact Or.inr ⟨err, rfl⟩
  | ok tid =>
      rcases createAuditLog_cases ⟨tid, event, payload⟩ db with appended | ⟨err, failed⟩
      · exact Or.inl ⟨tid, rfl, by simp only [wrapWrite, appended]; rfl⟩
      · exact Or.inr ⟨_, by simp only [wrapWrite, failed]; rfl⟩

/-- `SaveSnapshot` likewise. -/
theorem saveSnapshot_cases (snap : ReserveSnapshot) (db : Database) :
    (∃ tid, saveSnapshot snap db = (.ok (), { db with
        auditLog := db.auditLog ++ [⟨tid, "reserve_snapshot", snapshotPayload snap⟩] })) ∨
      ∃ err, saveSnapshot snap db = (.error err, db) := by
  unfold saveSnapshot
  cases tenant : toUUID snap.tenantID with
  | error err => exact Or.inr ⟨err, rfl⟩
  | ok tid =>
      rcases createAuditLog_cases ⟨tid, "reserve_snapshot", snapshotPayload snap⟩ db with
        appended | ⟨err, failed⟩
      · exact Or.inl ⟨tid, by simp only [wrapWrite, appended]; rfl⟩
      · exact Or.inr ⟨_, by simp only [wrapWrite, failed]; rfl⟩

/-- `ClaimCycle` writes to no table but its own. -/
theorem claimCycle_cases (tenantID requestKey : String) (db : Database) :
    (∃ claims, ∃ unique : claims.Nodup, claimCycle tenantID requestKey db =
        (.ok true, { db with cycleRuns := claims, cycleRuns_unique := unique })) ∨
      ∃ reply, reply ≠ .ok true ∧ claimCycle tenantID requestKey db = (reply, db) := by
  unfold claimCycle
  cases toUUID tenantID with
  | error err => exact Or.inr ⟨_, by simp, rfl⟩
  | ok tid =>
      dsimp only
      split
      · split
        · exact Or.inr ⟨_, by simp, rfl⟩
        · rename_i claimed
          exact Or.inl ⟨_, db.cycleRuns_unique.append (List.nodup_singleton _)
            (by simpa using claimed), rfl⟩
      · exact Or.inr ⟨_, by simp, rfl⟩

end Solva.Orchestrator
