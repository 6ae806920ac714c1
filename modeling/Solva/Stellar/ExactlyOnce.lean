import Solva.Stellar.Authorisation
import Solva.Stellar.Network

/-!
# One entry a publish

A publish waits for one transaction at a time. It gives up on the transaction when a
report is lost or late and then starts over, without knowing whether the ledger has
applied it or still will. Where nothing that it gave up on is ever applied, a publish
adds exactly the entry whose id it returns, and none if it fails.
-/

namespace Solva.Stellar

open Bn254 Codec Orchestrator Transition

/-! ## Where a publish stands -/

/-- A publish waits for no transaction or for one; it has the report of a success, or
was cancelled while it waited. -/
inductive Stage where
  | between
  | polling (tx : Transaction)
  | reported (got : GetResponse)
  | interrupted (err : ContextError)

/-- Where the answer to a poll leads. -/
def Stage.answered (q : Stage) (got : GetResponse) : Stage :=
  if got.status = "SUCCESS" then .reported got
  else if got.status = "NOT_FOUND" then q else .between

section Protocol

variable (sdk : Sdk)

/-- The protocol of a publish. -/
def publishProtocol : Protocol RpcCall RpcReply Stage where
  allowed q c :=
    match q, c with
    | .between, .sendTransaction signed => ∃ hash, sdk.hashHex signed.tx = .ok hash
    | .between, .getTransaction _ => False
    | .between, .pastDeadline _ => False
    | .between, _ => True
    | .polling tx, .getTransaction hash => sdk.hashHex tx = .ok hash
    | .polling _, .pastDeadline _ => True
    | .polling _, .wait _ => True
    | _, _ => False
  next q c reply :=
    match c, reply with
    | .sendTransaction signed, .ok send => if send.accepted then .polling signed.tx else .between
    | .sendTransaction _, .error _ => .between
    | .getTransaction _, .ok got => q.answered got
    | .getTransaction _, .error _ => .between
    | .pastDeadline left, late => if late ∨ left = 0 then .between else q
    | .wait _, some err =>
        match q with
        | .polling _ => .interrupted err
        | _ => q
    | _, _ => q

/-- Where a publish returns, and what. -/
def ReturnsAt : Stage → Result U64 → Prop
  | .between, result => ∃ err, result = .error err
  | .polling _, _ => False
  | .reported got, result => result = parseReturnValue sdk got.resultMeta
  | .interrupted err, result => result = .error err.toError

variable {sdk}

/-- Preparing a transaction waits for none. -/
theorem follows_of_prepares {α : Type} {part : RpcM α} (prepares : Prepares part) :
    (publishProtocol sdk).Follows (fun q _ => q = .between) .between part.run := by
  apply Protocol.Follows.of_allCalls prepares
  · intro c prepares
    cases c <;> first | exact prepares.elim | trivial
  · intro c reply prepares
    cases c <;> first | exact prepares.elim | rfl

theorem pollRound_follows {tx : Transaction} {hash : String} {again : RpcM U64}
    (hashed : sdk.hashHex tx = .ok hash)
    (rest : (publishProtocol sdk).Follows (ReturnsAt sdk) (.polling tx) again.run) :
    (publishProtocol sdk).Follows (ReturnsAt sdk) (.polling tx) (pollRound sdk hash again).run := by
  apply Protocol.Follows.call_bind hashed
  · rintro (err | got) _ equal
    · exact ⟨_, rfl⟩
    · cases equal
  rintro (err | got) _ ⟨⟩
  change (publishProtocol sdk).Follows _ (Stage.answered (.polling tx) got) _
  unfold Stage.answered
  by_cases success : got.status = "SUCCESS"
  · rw [if_pos success, if_pos success]
    rfl
  rw [if_neg success, if_neg success]
  by_cases missing : got.status = "NOT_FOUND"
  · have not_failed : got.status ≠ "FAILED" := by
      rw [missing]
      decide
    rw [if_pos missing, if_neg not_failed, if_pos missing]
    exact rest
  rw [if_neg missing]
  split_ifs
  · exact ⟨_, rfl⟩
  · exact ⟨_, rfl⟩

theorem pollFrom_follows {tx : Transaction} {hash : String} (hashed : sdk.hashHex tx = .ok hash)
    (left : Nat) :
    (publishProtocol sdk).Follows (ReturnsAt sdk) (.polling tx) (pollFrom sdk hash left).run := by
  induction left with
  | zero =>
      apply pollRound_follows hashed
      refine ⟨trivial, fun late => ?_⟩
      cases late <;> exact ⟨_, rfl⟩
  | succ left ih =>
      apply pollRound_follows hashed
      refine ⟨trivial, fun late => ?_⟩
      cases late with
      | true => exact ⟨_, rfl⟩
      | false =>
          refine ⟨trivial, fun cancelled => ?_⟩
          cases cancelled with
          | some err => rfl
          | none => exact ih

theorem sdkStep_follows {α : Type} (context : String) {result : Except String α}
    {next : α → RpcM U64}
    (rest : ∀ value, result = .ok value →
      (publishProtocol sdk).Follows (ReturnsAt sdk) .between (next value).run) :
    (publishProtocol sdk).Follows (ReturnsAt sdk) .between
      (sdkStep context result >>= next).run := by
  cases result with
  | error text => exact ⟨_, rfl⟩
  | ok value => exact rest value rfl

/-- The second half of an attempt waits for the transaction that it sent. -/
theorem submit_follows (tx : Transaction) :
    (publishProtocol sdk).Follows (ReturnsAt sdk) .between (submit sdk tx).run := by
  unfold submit
  apply Protocol.Follows.call_bind trivial
  · exact fun _ err _ => ⟨err, rfl⟩
  intro signed _ _
  apply sdkStep_follows
  intro signature _
  apply sdkStep_follows
  intro _ _
  apply sdkStep_follows
  intro hash hashed
  have sends : (publishProtocol sdk).allowed .between (.sendTransaction ⟨tx, signature⟩) :=
    ⟨hash, hashed⟩
  apply Protocol.Follows.call_bind sends
  · rintro (err | send) _ equal
    · exact ⟨_, rfl⟩
    · cases equal
  rintro (err | send) _ ⟨⟩
  change (publishProtocol sdk).Follows _ (if send.accepted then .polling tx else .between) _
  by_cases accepted : send.status = "PENDING" ∨ send.status = "DUPLICATE"
  · have polls : send.accepted = true := decide_eq_true accepted
    rw [if_pos accepted, if_pos polls]
    exact pollFrom_follows hashed _
  · have stops : ¬ send.accepted = true := fun polls => accepted (of_decide_eq_true polls)
    rw [if_neg accepted, if_neg stops]
    split_ifs
    · exact ⟨_, rfl⟩
    · exact ⟨_, rfl⟩
    · exact ⟨_, rfl⟩

theorem invokeOnce_follows (networkPassphrase address : String) (hostFn : InvokeContractArgs) :
    (publishProtocol sdk).Follows (ReturnsAt sdk) .between
      (invokeOnce sdk networkPassphrase address hostFn).run := by
  apply Protocol.Follows.except_bind (follows_of_prepares (assemble_prepares hostFn))
  · rintro q err rfl
    exact ⟨err, rfl⟩
  · rintro q tx rfl
    exact submit_follows tx

theorem isTransient_parseReturnValue {metaXDR : String} {err : GoError}
    (failed : parseReturnValue sdk metaXDR = .error err) : err.isTransient = false := by
  unfold parseReturnValue at failed
  split at failed <;> cases failed <;> rfl

/-- An error that is worth another attempt is returned where nothing is waited for. -/
theorem between_of_transient {q : Stage} {err : GoError} (returned : ReturnsAt sdk q (.error err))
    (transient : err.isTransient = true) : q = .between := by
  cases q with
  | between => rfl
  | polling tx => exact returned.elim
  | reported got =>
      rw [isTransient_parseReturnValue (Eq.symm returned)] at transient
      cases transient
  | interrupted ended =>
      cases returned
      cases ended <;> cases transient

theorem invokeFrom_follows (networkPassphrase address : String) (hostFn : InvokeContractArgs)
    (left backoff : Nat) :
    (publishProtocol sdk).Follows (ReturnsAt sdk) .between
      (invokeFrom sdk networkPassphrase address hostFn left backoff).run := by
  induction left generalizing backoff with
  | zero => exact ⟨_, rfl⟩
  | succ left ih =>
      unfold invokeFrom
      apply Protocol.Follows.bind (invokeOnce_follows networkPassphrase address hostFn)
      intro q result returned
      cases result with
      | ok id => exact returned
      | error err =>
          cases transient : err.isTransient with
          | false =>
              dsimp only
              rw [transient, if_pos Bool.false_ne_true]
              exact returned
          | true =>
              obtain rfl : q = .between := between_of_transient returned transient
              dsimp only
              rw [transient, if_neg (not_not.mpr rfl)]
              split
              · exact ⟨_, rfl⟩
              refine ⟨trivial, fun cancelled => ?_⟩
              cases cancelled with
              | some err => exact ⟨_, rfl⟩
              | none => exact ih (backoff * 2)

/-- The protocol of a whole publish. -/
theorem publishProof_follows (p : Publisher) (target : TenantContract) (proof : List UInt8)
    (pub : PublicInputs) :
    (publishProtocol sdk).Follows (ReturnsAt sdk) .between
      (publishProof sdk p target proof pub).run := by
  unfold publishProof
  split
  · exact ⟨_, rfl⟩
  · split
    · exact ⟨_, rfl⟩
    · cases publishCall sdk target proof pub with
      | error err => exact ⟨_, rfl⟩
      | ok hostFn => exact invokeFrom_follows _ _ hostFn _ _

end Protocol

/-! ## What a publish must not give up on -/

section Careful

variable {Address : Type} (sdk : Sdk)

/-- Whether an answer makes the publish give up on the transaction it waits for. -/
def givesUp : (c : RpcCall) → RpcReply c → Bool
  | .getTransaction _, .error _ => true
  | .getTransaction _, .ok got =>
      got.status ≠ "SUCCESS" ∧ got.status ≠ "FAILED" ∧ got.status ≠ "NOT_FOUND"
  | .pastDeadline left, late => late ∨ left = 0
  | _, _ => false

/-- The condition on the calls: what is given up on has added no entry. -/
def CarefulStep (i : Unit) (c : RpcCall) (s : Network Address) (reply : RpcReply c)
    (next : Network Address) : Prop :=
  RpcStep sdk i c s reply next ∧
    (givesUp c reply = true → ∀ tx id, s.awaited = some tx → (tx, .ok id) ∉ s.applied)

/-- The condition on the ledger: an entry is added only while its transaction is waited
for. -/
def CarefulMoves (verifier : Contract.Verifier) (s next : Network Address) : Prop :=
  LedgerMoves verifier s next ∧
    ∀ tx id, next.applied = s.applied ++ [(tx, .ok id)] → s.awaited = some tx

/-! ## The invariant -/

/-- A transaction has added no entry, or the only one. -/
def AtMostEntryOf (tx : Transaction) (s : Network Address) : Prop :=
  s.entries = [] ∨ ∃ id, s.entries = [id] ∧ (tx, .ok id) ∈ s.applied

/-- What the network holds for a publish that stands somewhere. -/
def StandsAt (s : Network Address) : Stage → Prop
  | .between => s.awaited = none ∧ s.entries = []
  | .polling tx => s.awaited = some tx ∧ AtMostEntryOf tx s
  | .reported got => s.awaited = none ∧
      ∃ id, s.entries = [id] ∧ parseReturnValue sdk got.resultMeta = .ok id
  | .interrupted _ => ∃ tx, s.awaited = some tx ∧ AtMostEntryOf tx s

/-- A transaction that was applied has consumed its sequence number. -/
def Consumed (s : Network Address) : Prop :=
  ∀ entry ∈ s.applied, entry.1.sequence ≤ s.sequence

variable {sdk} {s next : Network Address}

theorem AtMostEntryOf.eq_nil {tx : Transaction} (most : AtMostEntryOf tx s)
    (none_added : ∀ id, (tx, .ok id) ∉ s.applied) : s.entries = [] := by
  rcases most with empty | ⟨id, _, added⟩
  · exact empty
  · exact absurd added (none_added id)

theorem AtMostEntryOf.length_le {tx : Transaction} (most : AtMostEntryOf tx s) :
    s.entries.length ≤ 1 := by
  rcases most with empty | ⟨id, only, _⟩
  · simp [empty]
  · simp [only]

theorem AtMostEntryOf.congr {tx : Transaction} (most : AtMostEntryOf tx s)
    (applied : next.applied = s.applied) : AtMostEntryOf tx next := by
  unfold AtMostEntryOf Network.entries at *
  rw [applied]
  exact most

/-- A call that leaves a transaction to be waited for, or reports about it. -/
theorem StandsAt.poll {tx : Transaction} {hash : String} {got : GetResponse}
    (awaited : s.awaited = some tx) (most : AtMostEntryOf tx s) (hashed : sdk.hashHex tx = .ok hash)
    (truthful : Truthful sdk s (.getTransaction hash) (.ok got))
    (careful : givesUp (.getTransaction hash) (.ok got) = true →
      ∀ tx id, s.awaited = some tx → (tx, .ok id) ∉ s.applied)
    (applied : next.applied = s.applied)
    (awaited' : next.awaited = if got.status = "NOT_FOUND" then s.awaited else none) :
    StandsAt sdk next (Stage.answered (.polling tx) got) := by
  have entries : next.entries = s.entries := by
    unfold Network.entries
    rw [applied]
  unfold Stage.answered
  by_cases success : got.status = "SUCCESS"
  · have found : got.status ≠ "NOT_FOUND" := by
      rw [success]
      decide
    rcases truthful.1 success with ⟨tx', id, _, added, parsed⟩
    have mem : id ∈ s.entries := Network.mem_entries.mpr ⟨tx', added⟩
    rw [if_pos success]
    refine ⟨by rw [awaited', if_neg found], id, ?_, parsed⟩
    rcases most with empty | ⟨id', only, _⟩
    · rw [empty] at mem
      cases mem
    · rw [only] at mem
      rw [entries, only, List.mem_singleton.mp mem]
  rw [if_neg success]
  by_cases missing : got.status = "NOT_FOUND"
  · rw [if_pos missing] at awaited' ⊢
    exact ⟨awaited'.trans awaited, most.congr applied⟩
  rw [if_neg missing] at awaited' ⊢
  refine ⟨awaited', entries.trans (most.eq_nil fun id => ?_)⟩
  by_cases failed : got.status = "FAILED"
  · exact truthful.2 failed tx id hashed
  · exact careful (by simp [givesUp, success, failed, missing]) tx id awaited

/-- A call leads from where the network holds what it should to where it does. -/
theorem StandsAt.call {q : Stage} {c : RpcCall} {reply : RpcReply c} (stands : StandsAt sdk s q)
    (allowed : (publishProtocol sdk).allowed q c) (step : CarefulStep sdk () c s reply next) :
    StandsAt sdk next ((publishProtocol sdk).next q c reply) := by
  rcases step with ⟨⟨truthful, submitted, rfl, _⟩, careful⟩
  cases q with
  | between =>
      rcases stands with ⟨awaited, empty⟩
      cases c with
      | sendTransaction signed =>
          rcases reply with err | send
          · exact ⟨rfl, empty⟩
          · simp only [publishProtocol]
            cases accepted : send.accepted with
            | true => exact ⟨by simp [awaitedAfter, accepted], .inl empty⟩
            | false => exact ⟨by simp [awaitedAfter, accepted], empty⟩
      | getTransaction hash => exact allowed.elim
      | pastDeadline left => exact allowed.elim
      | wait delay =>
          rcases reply with _ | err
          · exact ⟨awaited, empty⟩
          · exact ⟨awaited, empty⟩
      | loadAccount | simulateTransaction | sign | signTransaction | now => exact ⟨awaited, empty⟩
  | polling tx =>
      rcases stands with ⟨awaited, most⟩
      cases c with
      | getTransaction hash =>
          rcases reply with err | got
          · exact ⟨rfl, most.eq_nil fun id => careful rfl tx id awaited⟩
          · exact StandsAt.poll awaited most allowed truthful careful rfl rfl
      | pastDeadline left =>
          by_cases expired : reply = true ∨ left = 0
          · have gives_up : givesUp (.pastDeadline left) reply = true := decide_eq_true expired
            simp only [publishProtocol, awaitedAfter, if_pos expired]
            exact ⟨rfl, most.eq_nil fun id => careful gives_up tx id awaited⟩
          · simp only [publishProtocol, awaitedAfter, if_neg expired]
            exact ⟨awaited, most⟩
      | wait delay =>
          rcases reply with _ | err
          · exact ⟨awaited, most⟩
          · exact ⟨tx, awaited, most⟩
      | loadAccount | simulateTransaction | sendTransaction | sign | signTransaction | now =>
          exact allowed.elim
  | reported got => cases c <;> exact allowed.elim
  | interrupted err => cases c <;> exact allowed.elim

/-- A transaction that is applied extends what was applied before. -/
theorem Network.applied_apply (s : Network Address) (verifier : Contract.Verifier)
    (env : Contract.Env Address) (tx : Transaction) :
    ∃ outcome, (s.apply verifier env tx).applied = s.applied ++ [(tx, outcome)] :=
  ⟨_, rfl⟩

theorem Consumed.move {verifier : Contract.Verifier} (consumed : Consumed s)
    (moved : LedgerMoves verifier s next) : Consumed next := by
  cases moved with
  | elsewhere sequence _ => exact fun entry mem => (consumed entry mem).trans sequence
  | @applies tx env applicable =>
      rcases s.applied_apply verifier env tx with ⟨outcome, applied⟩
      intro entry mem
      rw [applied] at mem
      rcases List.mem_append.mp mem with old | new
      · have used := consumed entry old
        have next_number := applicable.2.1
        change entry.1.sequence ≤ tx.sequence
        omega
      · rw [List.mem_singleton.mp new]
        exact le_refl tx.sequence

/-- A move of the ledger adds an entry only of the transaction that is waited for, and
none after its first. -/
theorem AtMostEntryOf.move {verifier : Contract.Verifier} {tx : Transaction}
    (most : AtMostEntryOf tx s) (awaited : s.awaited = some tx) (consumed : Consumed s)
    (moved : CarefulMoves verifier s next) : AtMostEntryOf tx next := by
  rcases moved with ⟨moved, careful⟩
  cases moved with
  | elsewhere _ _ => exact most
  | @applies applied_tx env applicable =>
      rcases s.entries_apply verifier env applied_tx with ⟨id, applied, entries⟩ | same
      · obtain rfl : tx = applied_tx := Option.some.inj (awaited.symm.trans (careful _ id applied))
        rcases most with empty | ⟨_, _, added⟩
        · exact .inr ⟨id, by rw [entries, empty, List.nil_append], by rw [applied]; simp⟩
        · have used : tx.sequence ≤ s.sequence := consumed _ added
          have next_number := applicable.2.1
          omega
      · rcases most with empty | ⟨id, only, added⟩
        · exact .inl (same.trans empty)
        · rcases s.applied_apply verifier env applied_tx with ⟨outcome, applied⟩
          exact .inr ⟨id, same.trans only, by rw [applied]; exact List.mem_append_left _ added⟩

/-- While nothing is waited for, the ledger adds no entry. -/
theorem entries_eq_of_move {verifier : Contract.Verifier} (awaited : s.awaited = none)
    (moved : CarefulMoves verifier s next) : next.entries = s.entries := by
  rcases moved with ⟨moved, careful⟩
  cases moved with
  | elsewhere _ _ => rfl
  | @applies tx env _ =>
      rcases s.entries_apply verifier env tx with ⟨id, applied, _⟩ | same
      · rw [careful tx id applied] at awaited
        cases awaited
      · exact same

theorem awaited_eq_of_move {verifier : Contract.Verifier} (moved : LedgerMoves verifier s next) :
    next.awaited = s.awaited := by
  cases moved <;> rfl

theorem StandsAt.move {verifier : Contract.Verifier} {q : Stage} (stands : StandsAt sdk s q)
    (consumed : Consumed s) (moved : CarefulMoves verifier s next) : StandsAt sdk next q := by
  have awaited_eq := awaited_eq_of_move moved.1
  cases q with
  | between =>
      rcases stands with ⟨awaited, empty⟩
      exact ⟨awaited_eq.trans awaited, (entries_eq_of_move awaited moved).trans empty⟩
  | polling tx =>
      rcases stands with ⟨awaited, most⟩
      exact ⟨awaited_eq.trans awaited, most.move awaited consumed moved⟩
  | reported got =>
      rcases stands with ⟨awaited, id, only, parsed⟩
      exact ⟨awaited_eq.trans awaited, id, (entries_eq_of_move awaited moved).trans only, parsed⟩
  | interrupted err =>
      rcases stands with ⟨tx, awaited, most⟩
      exact ⟨tx, awaited_eq.trans awaited, most.move awaited consumed moved⟩

/-! ## Every run -/

/-- A network before a publish. -/
def Network.before (sequence time : Int) (registries : BytesN 32 → Contract.Storage Address) :
    Network Address :=
  ⟨sequence, time, registries, [], [], none⟩

/-- A publish that has not begun. -/
def publishPool (sdk : Sdk) (p : Publisher) (target : TenantContract) (proof : List UInt8)
    (pub : PublicInputs) (network : Network Address) :
    Pool Unit RpcCall RpcReply (Result U64) (Network Address) :=
  ⟨fun _ => (publishProof sdk p target proof pub).run, network⟩

theorem standsAt_of_run {verifier : Contract.Verifier} {sequence time : Int}
    {registries : BytesN 32 → Contract.Storage Address}
    {labels : List (Option (Unit × Performed RpcCall RpcReply))}
    {later : (Unit → Stage) × Network Address}
    (run : Run (Protocol.Interleaved (fun _ => publishProtocol sdk) (CarefulStep sdk)
        (CarefulMoves verifier))
      (fun _ => .between, .before sequence time registries) labels later) :
    StandsAt sdk later.2 (later.1 ()) ∧ Consumed later.2 := by
  apply run.invariant (motive := fun state => StandsAt sdk state.2 (state.1 ()) ∧ Consumed state.2)
  · exact ⟨⟨rfl, rfl⟩, fun entry mem => nomatch mem⟩
  · rintro source label target ⟨stands, consumed⟩ step
    cases step with
    | @thread positions shared next i c reply allowed acted =>
        have here := stands.call allowed acted
        rcases acted.1 with ⟨_, submitted, rfl, _⟩
        exact ⟨by simpa using here, consumed⟩
    | env moved => exact ⟨stands.move consumed moved, consumed.move moved.1⟩

/-- In every run in which nothing that the publish gives up on adds an entry, before or
after, the publish adds at most one entry, exactly the one whose id it returns, and
none if it fails, unless it was cancelled. -/
theorem publishProof_exactly_once (sdk : Sdk) (verifier : Contract.Verifier) (p : Publisher)
    (target : TenantContract) (proof : List UInt8) (pub : PublicInputs) (sequence time : Int)
    (registries : BytesN 32 → Contract.Storage Address)
    {labels : List (Option (Unit × Performed RpcCall RpcReply))}
    {later : Pool Unit RpcCall RpcReply (Result U64) (Network Address)}
    (run : Run (Pool.Interleaved (CarefulStep sdk) (CarefulMoves verifier))
      (publishPool sdk p target proof pub (.before sequence time registries)) labels later) :
    later.shared.entries.length ≤ 1 ∧
      (∀ id, later.threads () = .ret (.ok id) → later.shared.entries = [id]) ∧
      ∀ err, later.threads () = .ret (.error err) → isCancellation err = false →
        later.shared.entries = [] := by
  have abstracts : Protocol.Abstracts (fun _ => publishProtocol sdk) (fun _ => ReturnsAt sdk)
      (fun _ => .between)
      (publishPool sdk p target proof pub (.before sequence time registries)) :=
    fun _ => publishProof_follows p target proof pub
  rcases Protocol.exists_run abstracts run with ⟨positions, run, ended⟩
  have stands : StandsAt sdk later.shared (positions ()) := (standsAt_of_run run).1
  have returned : (publishProtocol sdk).Follows (ReturnsAt sdk) (positions ()) (later.threads ()) :=
    ended ()
  cases stage : positions () with
  | between =>
      rw [stage] at stands returned
      rcases stands with ⟨_, empty⟩
      refine ⟨by simp [empty], fun id thread => ?_, fun _ _ _ => empty⟩
      rw [thread] at returned
      rcases returned with ⟨err, equal⟩
      cases equal
  | polling tx =>
      rw [stage] at stands returned
      refine ⟨stands.2.length_le, fun id thread => ?_, fun err thread => ?_⟩
      · rw [thread] at returned
        exact returned.elim
      · rw [thread] at returned
        exact returned.elim
  | reported got =>
      rw [stage] at stands returned
      rcases stands with ⟨_, id, only, parsed⟩
      refine ⟨by simp [only], fun id' thread => ?_, fun err thread => ?_⟩
      · rw [thread] at returned
        have same : Except.ok id' = Except.ok id := returned.trans parsed
        cases same
        exact only
      · rw [thread] at returned
        have failed : Except.error err = Except.ok id := returned.trans parsed
        cases failed
  | interrupted ended_by =>
      rw [stage] at stands returned
      rcases stands with ⟨tx, _, most⟩
      refine ⟨most.length_le, fun id thread => ?_, fun err thread other => ?_⟩
      · rw [thread] at returned
        cases returned
      · rw [thread] at returned
        cases returned
        cases ended_by <;> cases other

end Careful

/-! ## Runs -/

/-- An SDK whose hashes are the sequence numbers, and whose result metas are as long as
the ids they hold. -/
def numberedSdk : Sdk :=
  { sampleSdk with
    decodeMeta := fun text => .ok (.v3 (some (.u64 (Fin.ofNat (2 ^ 64) text.length))))
    hashHex := fun tx => .ok (toString tx.sequence) }

/-- A verifier that accepts every proof of the right length. -/
def acceptAll : Contract.Verifier :=
  fun _ _ _ => some true

/-- A call that its owner authorised. -/
def authorisedEnv : Contract.Env Unit :=
  ⟨fun _ => true, 1767225600⟩

/-- The answers of an RPC that knows the network. -/
def honestReply (s : Network Unit) : (c : RpcCall) → RpcReply c
  | .loadAccount _ => .ok (.ok s.sequence)
  | .simulateTransaction tx =>
      match (invoke acceptAll authorisedEnv tx.operation.hostFunction s.registries).1 with
      | .ok _ => .ok ⟨"", false, [none], "", 0, 0⟩
      | _ => .ok ⟨"HostError", false, [], "", 0, 0⟩
  | .sendTransaction _ => .ok ⟨"PENDING", ""⟩
  | .getTransaction hash =>
      match s.applied.find? fun entry => toString entry.1.sequence = hash with
      | some (_, .ok id) => .ok ⟨"SUCCESS", "", String.ofList (List.replicate id.val 'x')⟩
      | _ => .ok ⟨"NOT_FOUND", "", ""⟩
  | .sign _ => .ok []
  | .signTransaction _ => .ok []
  | .now => s.time
  | .pastDeadline _ => false
  | .wait _ => none

/-- A call to such an RPC. -/
def honestCall (c : RpcCall) (s : Network Unit) : RpcReply c × Network Unit :=
  let reply := honestReply s c
  let submitted :=
    match c with
    | .sendTransaction signed => s.submitted ++ [signed.tx]
    | _ => s.submitted
  (reply, { s with submitted := submitted, awaited := awaitedAfter s.awaited c reply })

/-- A poll whose answer is lost. -/
def lostCall (c : RpcCall) (s : Network Unit) : RpcReply c × Network Unit :=
  match c with
  | .getTransaction _ => (.error (.plain "connection reset"), { s with awaited := none })
  | c => honestCall c s

theorem parseReturnValue_numberedSdk (id : U64) :
    parseReturnValue numberedSdk (String.ofList (List.replicate id.val 'x')) = .ok id := by
  unfold parseReturnValue numberedSdk
  dsimp only
  rw [String.length_ofList, List.length_replicate]
  exact congrArg Except.ok (Fin.ext (Nat.mod_eq_of_lt id.isLt))

theorem honestReply_truthful (c : RpcCall) (s : Network Unit) :
    Truthful numberedSdk s c (honestReply s c) := by
  cases c with
  | getTransaction hash =>
      simp only [honestReply]
      split
      · rename_i tx id found
        have hash_eq : toString tx.sequence = hash := by simpa using List.find?_some found
        refine ⟨fun _ => ⟨tx, id, congrArg Except.ok hash_eq, List.mem_of_find?_eq_some found,
          parseReturnValue_numberedSdk id⟩, fun failed => ?_⟩
        exact absurd (show "SUCCESS" = "FAILED" from failed) (by decide)
      · exact ⟨fun success => absurd success (by decide), fun failed => absurd failed (by decide)⟩
  | _ => trivial

theorem honestCall_step (c : RpcCall) (s : Network Unit) :
    RpcStep numberedSdk () c s (honestCall c s).1 (honestCall c s).2 := by
  refine ⟨honestReply_truthful c s, _, rfl, ?_⟩
  cases c with
  | sendTransaction signed => exact .inr ⟨signed, rfl, rfl⟩
  | _ => exact .inl rfl

theorem lostCall_step (c : RpcCall) (s : Network Unit) :
    RpcStep numberedSdk () c s (lostCall c s).1 (lostCall c s).2 := by
  cases c with
  | getTransaction hash => exact ⟨trivial, _, rfl, .inl rfl⟩
  | _ => exact honestCall_step _ s

/-- The ledger applies the transaction that was sent last, once it may. -/
def applyLast (s : Network Unit) : Network Unit :=
  match s.submitted.getLast? with
  | some tx =>
      if tx.sequence = s.sequence + 1 ∧ s.time ≤ tx.maxTime then s.apply acceptAll authorisedEnv tx
      else s
  | none => s

theorem applyLast_moves (s : Network Unit) : LedgerMoves acceptAll s (applyLast s) := by
  unfold applyLast
  split
  · rename_i tx last
    split
    · rename_i applicable
      exact .applies authorisedEnv ⟨List.mem_of_getLast? last, applicable⟩
    · exact .elsewhere le_rfl le_rfl
  · exact .elsewhere le_rfl le_rfl

/-- A registry whose first publish declares its reserves as the previous ones. -/
def genesisRegistry : Contract.Storage Unit :=
  ⟨some (), some [], some 0, fun _ => none, []⟩

def genesisInputs : PublicInputs :=
  { sampleInputs with prevReserves := "1000000" }

/-- A publish of a proof of the right length. -/
def genesisPublish : Pool Unit RpcCall RpcReply (Result U64) (Network Unit) :=
  publishPool numberedSdk samplePublisher ⟨"CTARGET", "testnet"⟩
    (List.replicate Contract.PROOF_BYTES 0) genesisInputs
    (.before 100 1767225600 fun _ => genesisRegistry)

/-- Load, simulate, sign and send. -/
def sending : List (Pool.Turn Unit RpcCall RpcReply (Network Unit)) :=
  List.replicate 6 (.thread () honestCall)

/-- The report of the first transaction is lost, and the next attempt sends a second. -/
def lostReport : List (Pool.Turn Unit RpcCall RpcReply (Network Unit)) :=
  sending ++ [.env applyLast, .thread () lostCall, .thread () honestCall] ++ sending ++
    [.env applyLast, .thread () honestCall]

/-- The publish adds two entries, and returns the id of the second. -/
theorem publishProof_twice :
    ∃ labels later, Run (Pool.Interleaved (RpcStep numberedSdk) (LedgerMoves acceptAll))
        genesisPublish labels later ∧
      later.threads () = .ret (.ok 2) ∧ later.shared.entries = [1, 2] := by
  have admitted : ∀ turn ∈ lostReport,
      turn.Admitted (RpcStep numberedSdk) (LedgerMoves acceptAll) := by
    intro turn mem
    simp only [lostReport, sending, List.mem_append, List.mem_replicate, List.mem_cons,
      List.not_mem_nil, or_false] at mem
    rcases mem with ((⟨_, rfl⟩ | rfl | rfl | rfl) | ⟨_, rfl⟩) | rfl | rfl
    · exact honestCall_step
    · exact applyLast_moves
    · exact lostCall_step
    · exact honestCall_step
    · exact honestCall_step
    · exact applyLast_moves
    · exact honestCall_step
  have played : ((genesisPublish.after lostReport).threads ()).result? = some (.ok 2) ∧
      (genesisPublish.after lostReport).shared.entries = [1, 2] := by decide +kernel
  rcases Pool.exists_run_after admitted genesisPublish with ⟨labels, run⟩
  exact ⟨labels, _, run, Program.eq_ret_of_result? played.1, played.2⟩

/-! ### A publish whose report arrives -/

/-- Calls that do not end a poll. -/
def politeGuard (_ : Unit) (c : RpcCall) (_ : Network Unit) : Bool :=
  match c with
  | .pastDeadline _ => false
  | _ => true

/-- A polite call gives up on nothing. -/
theorem honestCall_careful {c : RpcCall} {s next : Network Unit} {reply : RpcReply c}
    (acted : Pool.guarded politeGuard
      (fun _ c s reply next => (reply, next) = honestCall c s) () c s reply next) :
    CarefulStep numberedSdk () c s reply next := by
  rcases acted with ⟨polite, equal⟩
  rcases Prod.mk.inj equal with ⟨rfl, rfl⟩
  refine ⟨honestCall_step c s, fun gives_up => ?_⟩
  cases c with
  | pastDeadline left => cases polite
  | getTransaction hash =>
      simp only [honestReply] at gives_up
      split at gives_up <;> simp [givesUp] at gives_up
  | _ => cases gives_up

/-- The steps of an honest RPC that is called politely. -/
abbrev PoliteRun (start : Pool Unit RpcCall RpcReply (Result U64) (Network Unit))
    (labels : List (Option (Unit × Performed RpcCall RpcReply)))
    (later : Pool Unit RpcCall RpcReply (Result U64) (Network Unit)) : Prop :=
  Run (Pool.Interleaved (Pool.guarded politeGuard
    fun _ c s reply next => (reply, next) = honestCall c s) fun _ _ => False) start labels later

theorem exists_politeRun {turns : List (Pool.Turn Unit RpcCall RpcReply (Network Unit))}
    {start : Pool Unit RpcCall RpcReply (Result U64) (Network Unit)}
    (honest : ∀ turn ∈ turns, turn = .thread () honestCall)
    (met : start.meets politeGuard turns = true) :
    ∃ labels, PoliteRun start labels (start.after turns) := by
  apply Pool.exists_run_after_guarded _ met
  intro turn mem
  rw [honest turn mem]
  exact fun c s => rfl

theorem PoliteRun.careful {start later : Pool Unit RpcCall RpcReply (Result U64) (Network Unit)}
    {labels : List (Option (Unit × Performed RpcCall RpcReply))}
    (run : PoliteRun start labels later) :
    Run (Pool.Interleaved (CarefulStep numberedSdk) (CarefulMoves acceptAll)) start labels
      later := by
  apply run.mono
  intro source label next step
  cases step with
  | thread at_call acted => exact .thread at_call (honestCall_careful acted)
  | env moved => exact moved.elim

theorem honestCall_submitted {c : RpcCall} {s : Network Unit}
    (held : ∀ tx, s.awaited = some tx → tx ∈ s.submitted) :
    ∀ tx, (honestCall c s).2.awaited = some tx → tx ∈ (honestCall c s).2.submitted := by
  intro tx awaited
  rcases eq_of_awaitedAfter awaited with before | ⟨signed, rfl, rfl⟩
  · cases c with
    | sendTransaction signed => exact List.mem_append_left _ (held tx before)
    | _ => exact held tx before
  · exact List.mem_append_right _ (List.mem_singleton_self _)

/-- What is waited for was submitted. -/
theorem PoliteRun.awaited_submitted
    {start later : Pool Unit RpcCall RpcReply (Result U64) (Network Unit)}
    {labels : List (Option (Unit × Performed RpcCall RpcReply))}
    (run : PoliteRun start labels later)
    (initial : start.shared.awaited = none) :
    ∀ tx, later.shared.awaited = some tx → tx ∈ later.shared.submitted := by
  apply run.invariant (motive := fun pool => ∀ tx, pool.shared.awaited = some tx →
    tx ∈ pool.shared.submitted)
  · intro tx awaited
    rw [initial] at awaited
    cases awaited
  · intro source label target held step
    cases step with
    | env moved => exact moved.elim
    | @thread _ _ c resume reply next at_call acted =>
        rcases Prod.mk.inj acted.2 with ⟨rfl, rfl⟩
        exact honestCall_submitted held

/-- The ledger applies the transaction that is waited for. -/
def applyAwaited (s : Network Unit) : Network Unit :=
  match s.awaited with
  | some tx => s.apply acceptAll authorisedEnv tx
  | none => s

/-- One call. -/
def polling : List (Pool.Turn Unit RpcCall RpcReply (Network Unit)) :=
  [.thread () honestCall]

/-- The publish with its transaction sent. -/
def sentPublish : Pool Unit RpcCall RpcReply (Result U64) (Network Unit) :=
  genesisPublish.after sending

/-- The publish with its transaction applied. -/
def appliedPublish : Pool Unit RpcCall RpcReply (Result U64) (Network Unit) :=
  ⟨sentPublish.threads, applyAwaited sentPublish.shared⟩

theorem publishProof_exactly_once_sample :
    ∃ labels later, Run (Pool.Interleaved (CarefulStep numberedSdk) (CarefulMoves acceptAll))
        genesisPublish labels later ∧
      later.threads () = .ret (.ok 1) ∧ later.shared.entries = [1] := by
  have played : genesisPublish.meets politeGuard sending = true ∧
      (sentPublish.shared.awaited.map fun tx => decide
        (tx.sequence = sentPublish.shared.sequence + 1 ∧ sentPublish.shared.time ≤ tx.maxTime)) =
          some true ∧
      appliedPublish.meets politeGuard polling = true ∧
      ((appliedPublish.after polling).threads ()).result? =
        some (.ok 1) := by decide +kernel
  rcases played with ⟨sent_politely, applicable, polled_politely, returned⟩
  rcases exists_politeRun (fun _ => List.eq_of_mem_replicate) sent_politely with ⟨before, sent⟩
  rcases exists_politeRun (fun _ => List.mem_singleton.mp) polled_politely with ⟨after, polled⟩
  rcases Option.map_eq_some_iff.mp applicable with ⟨tx, awaited, numbers⟩
  have sent_run : PoliteRun genesisPublish before sentPublish := sent
  have submitted := sent_run.awaited_submitted rfl tx awaited
  have moved : CarefulMoves acceptAll sentPublish.shared (applyAwaited sentPublish.shared) := by
    unfold applyAwaited
    rw [awaited]
    refine ⟨.applies authorisedEnv ⟨submitted, of_decide_eq_true numbers⟩, ?_⟩
    intro tx' id applied
    rcases sentPublish.shared.applied_apply acceptAll authorisedEnv tx with ⟨outcome, extended⟩
    rw [extended] at applied
    cases List.append_cancel_left applied
    exact awaited
  have step : Pool.Interleaved (CarefulStep numberedSdk) (CarefulMoves acceptAll) sentPublish none
      appliedPublish := .env moved
  have run : Run (Pool.Interleaved (CarefulStep numberedSdk) (CarefulMoves acceptAll))
      genesisPublish (before ++ [none] ++ after) (appliedPublish.after polling) :=
    (sent_run.careful.trans (.single step)).trans polled.careful
  have thread := Program.eq_ret_of_result? returned
  have once := (publishProof_exactly_once _ _ _ _ _ _ _ _ _ run).2.1 1 thread
  exact ⟨_, _, run, thread, once⟩

end Solva.Stellar
