import Solva.Orchestrator.Attested
import Solva.Sandbox.Payload

/-!
# What a snapshot vouches for

Whatever the server answers, each figure of a snapshot comes from a response to the
request of its account, over which the custodian's key has signed. The account that
the response names is not compared with the account that was asked for.
-/

namespace Solva.Orchestrator.Attested

open Codec Transition

/-- The two encoders write the same bytes. -/
theorem canonicalPayload_eq (b : BalanceResponse) :
    canonicalPayload b = Sandbox.canonicalPayload b.sourceID b.balance b.currency b.asOf :=
  rfl

/-! ## Where a goroutine stands -/

/-- A goroutine is still fetching, with the response that its last request left it, or
it has left its figure or its error. -/
inductive SourcePhase where
  | fetching (last : Option BalanceResponse)
  | stored (b : BalanceResponse)
  | failed

/-- The response that was taken. -/
def SourcePhase.taken : SourcePhase → Option BalanceResponse
  | fetching last => last
  | stored b => some b
  | failed => none

section Protocol

variable {Key : Type} (tools : Tools Key) (a : Adapter Key)

/-- The protocol of the goroutine of an account. -/
def sourceProtocol (account token : String) : Protocol SourceCall SourceReply SourcePhase where
  allowed q c :=
    match q, c with
    | .fetching _, .balance endpoint sent => endpoint = balanceEndpoint a account ∧ sent = token
    | .fetching _, .wait _ => True
    | .fetching last, .store reserve => last.map toReserve = some reserve
    | .fetching _, .fail _ => True
    | _, _ => False
  next q c reply :=
    match c, reply with
    | .balance _ _, reply => .fetching (checkBalance tools a.pubKey reply).toOption
    | .store _, _ => (q.taken.map SourcePhase.stored).getD .failed
    | .fail _, _ => .failed
    | _, _ => q

/-- While fetching, a result is the response that was taken. -/
def HoldsResult (q : SourcePhase) : Result BalanceResponse → Prop
  | .ok b => q = .fetching (some b)
  | .error _ => ∃ last, q = .fetching last

theorem fetchFrom_follows (account token : String) (left backoff : Nat)
    (last : Option BalanceResponse) :
    (sourceProtocol tools a account token).Follows HoldsResult (.fetching last)
      (fetchFrom tools a account token left backoff) := by
  induction left generalizing backoff last with
  | zero => exact ⟨last, rfl⟩
  | succ left ih =>
      unfold fetchFrom fetchBalance
      simp only [Program.perform, Program.call_bind, Program.ret_bind, Program.pure_eq]
      refine ⟨⟨rfl, rfl⟩, fun reply => ?_⟩
      change Protocol.Follows _ HoldsResult
        (.fetching (checkBalance tools a.pubKey reply).toOption) _
      dsimp only
      cases checkBalance tools a.pubKey reply with
      | ok b => rfl
      | error err =>
          dsimp only
          split
          · exact ⟨none, rfl⟩
          · split
            · exact ⟨none, rfl⟩
            · refine ⟨trivial, fun cancelled => ?_⟩
              cases cancelled with
              | some err => exact ⟨none, rfl⟩
              | none => exact ih (backoff * 2) none

/-- A goroutine ends with its figure or its error left. -/
theorem fetchSource_follows (account token : String) :
    (sourceProtocol tools a account token).Follows (fun q _ => ∀ last, q ≠ .fetching last)
      (.fetching none) (fetchSource tools a account token) := by
  apply (fetchFrom_follows tools a account token _ _ none).bind
  intro q result holds
  cases result with
  | ok b =>
      obtain rfl : q = .fetching (some b) := holds
      exact ⟨rfl, fun _ last equal => nomatch equal⟩
  | error err =>
      rcases holds with ⟨last, rfl⟩
      exact ⟨trivial, fun _ last equal => nomatch equal⟩

end Protocol

/-! ## Every run -/

section Run

variable {Key : Type} (tools : Tools Key) (a : Adapter Key)

/-- A label of the goroutines of a batch. -/
abbrev SourceLabel : Type :=
  Option (Fin a.accounts.length × Performed SourceCall SourceReply)

/-- The server answered the request of an account with a response. -/
def Answered (labels : List (SourceLabel a)) (i : Fin a.accounts.length) (b : BalanceResponse) :
    Prop :=
  ∃ token, some (i, ⟨.balance (balanceEndpoint a (a.accounts.get i)) token,
    .answered 200 (.ok b)⟩) ∈ labels

/-- The key has signed the canonical payload of a response. -/
def Verified (b : BalanceResponse) : Prop :=
  ∃ sig, verifySignature tools a.pubKey (canonicalPayload b) sig = .ok ()

/-- What was taken was answered and is signed, and fills the slot of its account. -/
structure Attests (positions : Fin a.accounts.length → SourcePhase) (labels : List (SourceLabel a))
    (group : Group) : Prop where
  length_eq : group.reserves.length = a.accounts.length
  taken : ∀ i b, (positions i).taken = some b → Answered a labels i b ∧ Verified tools a b
  stored : ∀ i b, positions i = .stored b → group.reserves[(i : Nat)]? = some (toReserve b)
  failed : ∀ i, positions i = .failed → group.err ≠ none
  failing : ∀ i err reply, some (i, ⟨.fail err, reply⟩) ∈ labels → group.err ≠ none

variable {tools a} {positions : Fin a.accounts.length → SourcePhase} {labels : List (SourceLabel a)}
  {group : Group}

theorem Answered.concat {i : Fin a.accounts.length} {b : BalanceResponse}
    (answered : Answered a labels i b) (label : SourceLabel a) :
    Answered a (labels ++ [label]) i b := by
  rcases answered with ⟨token, mem⟩
  exact ⟨token, List.mem_append_left _ mem⟩

/-- The invariant survives a step that moves one goroutine, if it holds where that one
goes. -/
theorem Attests.move {i : Fin a.accounts.length} {phase : SourcePhase} {next : Group}
    {performed : Performed SourceCall SourceReply} (held : Attests tools a positions labels group)
    (length_eq : next.reserves.length = group.reserves.length)
    (taken : ∀ b, phase.taken = some b →
      Answered a (labels ++ [some (i, performed)]) i b ∧ Verified tools a b)
    (stored : ∀ b, phase = .stored b → next.reserves[(i : Nat)]? = some (toReserve b))
    (others : ∀ j ≠ i, next.reserves[(j : Nat)]? = group.reserves[(j : Nat)]?)
    (failed : phase = .failed → next.err ≠ none)
    (failing : ∀ err reply, performed = ⟨.fail err, reply⟩ → next.err ≠ none)
    (kept : group.err ≠ none → next.err ≠ none) :
    Attests tools a (Function.update positions i phase) (labels ++ [some (i, performed)]) next where
  length_eq := length_eq.trans held.length_eq
  taken := by
    apply (Function.forall_update_iff positions fun j phase => ∀ b, phase.taken = some b →
      Answered a _ j b ∧ Verified tools a b).mpr
    refine ⟨taken, fun j _ b took => ?_⟩
    rcases held.taken j b took with ⟨answered, verified⟩
    exact ⟨answered.concat _, verified⟩
  stored := by
    apply (Function.forall_update_iff positions fun j phase => ∀ b, phase = .stored b →
      next.reserves[(j : Nat)]? = some (toReserve b)).mpr
    refine ⟨stored, fun j ne b at_stored => ?_⟩
    rw [others j ne]
    exact held.stored j b at_stored
  failed := by
    apply (Function.forall_update_iff positions fun _ phase => phase = .failed →
      next.err ≠ none).mpr
    exact ⟨failed, fun j _ at_failed => kept (held.failed j at_failed)⟩
  failing := by
    intro j err reply mem
    rcases List.mem_append.mp mem with earlier | now
    · exact kept (held.failing j err reply earlier)
    · cases List.mem_singleton.mp now
      exact failing err reply rfl

/-- A call of a goroutine keeps the invariant. -/
theorem Attests.step {i : Fin a.accounts.length} {token : String} {c : SourceCall}
    {reply : SourceReply c} {next : Group} (held : Attests tools a positions labels group)
    (allowed : (sourceProtocol tools a (a.accounts.get i) token).allowed (positions i) c)
    (acted : SourceStep i c group reply next) :
    Attests tools a
      (Function.update positions i
        ((sourceProtocol tools a (a.accounts.get i) token).next (positions i) c reply))
      (labels ++ [some (i, ⟨c, reply⟩)]) next := by
  cases phase : positions i with
  | stored b =>
      rw [phase] at allowed
      cases c <;> exact allowed.elim
  | failed =>
      rw [phase] at allowed
      cases c <;> exact allowed.elim
  | fetching last =>
      rw [phase] at allowed
      cases c with
      | authorize clientID => exact allowed.elim
      | token code => exact allowed.elim
      | balance endpoint sent =>
          rcases allowed with ⟨rfl, rfl⟩
          obtain rfl : next = group := acted
          apply held.move rfl
          case taken =>
            intro b took
            have ok : checkBalance tools a.pubKey reply = .ok b := by
              cases checked : checkBalance tools a.pubKey reply with
              | error err =>
                  simp [sourceProtocol, SourcePhase.taken, checked, Except.toOption] at took
              | ok found =>
                  simp only [sourceProtocol, SourcePhase.taken, checked, Except.toOption,
                    Option.some.injEq] at took
                  rw [took]
            rcases checkBalance_eq_ok tools ok with ⟨rfl, verified⟩
            exact ⟨⟨_, List.mem_append_right _ (List.mem_singleton_self _)⟩, verified⟩
          case stored => exact fun b equal => nomatch equal
          case others => exact fun j _ => rfl
          case failed => exact fun equal => nomatch equal
          case failing => exact fun err reply equal => nomatch equal
          case kept => exact id
      | wait delay =>
          obtain rfl : next = group := acted
          apply held.move rfl
          case taken =>
            intro b took
            rcases held.taken i b (phase ▸ took) with ⟨answered, verified⟩
            exact ⟨answered.concat _, verified⟩
          case stored => exact fun b equal => nomatch equal
          case others => exact fun j _ => rfl
          case failed => exact fun equal => nomatch equal
          case failing => exact fun err reply equal => nomatch equal
          case kept => exact id
      | store reserve =>
          obtain rfl : next = { group with reserves := group.reserves.set i reserve } := acted
          obtain ⟨b, rfl, rfl⟩ : ∃ b, last = some b ∧ toReserve b = reserve :=
            Option.map_eq_some_iff.mp allowed
          apply held.move (List.length_set ..)
          case taken =>
            intro b' took
            rcases held.taken i b' (phase ▸ took) with ⟨answered, verified⟩
            exact ⟨answered.concat _, verified⟩
          case stored =>
            rintro b' ⟨⟩
            apply List.getElem?_set_self
            rw [held.length_eq]
            exact i.isLt
          case others => exact fun j ne => List.getElem?_set_ne (Fin.val_ne_of_ne ne.symm)
          case failed => exact fun equal => nomatch equal
          case failing => exact fun err reply equal => nomatch equal
          case kept => exact id
      | fail err =>
          obtain rfl : next = { group with err := group.err.or (some err) } := acted
          have failed : group.err.or (some err) ≠ none := by
            cases group.err <;> simp
          apply held.move
          case length_eq => rfl
          case taken => exact fun b equal => nomatch equal
          case stored => exact fun b equal => nomatch equal
          case others => exact fun j _ => rfl
          case failed => exact fun _ => failed
          case failing => exact fun _ _ _ => failed
          case kept => exact fun _ => failed

/-- The invariant holds in every state reached. -/
theorem attests_of_run {token : String} {later : (Fin a.accounts.length → SourcePhase) × Group}
    (run : Run (Protocol.Interleaved (fun i => sourceProtocol tools a (a.accounts.get i) token)
        SourceStep fun _ _ => False)
      (fun _ => .fetching none, (sourcePool tools a token).shared) labels later) :
    Attests tools a later.1 labels later.2 := by
  apply run.invariant_labels (motive := fun labels state => Attests tools a state.1 labels state.2)
  · exact ⟨List.length_replicate, fun _ _ took => (nomatch took), fun _ _ equal => (nomatch equal),
      fun _ equal => (nomatch equal), fun _ _ _ mem => (nomatch mem)⟩
  · intro taken source label target held step
    cases step with
    | thread allowed acted => exact held.step allowed acted
    | env moved => exact moved.elim

end Run

/-! ## The snapshot -/

/-- The encoders agree and are injective. With signatures that cannot be forged, a
snapshot has a figure for every account, in order, each from a signed statement in the
answer to the request of its account; and no snapshot is left once an account fails. -/
theorem fetchSigned_attested {Key : Type} (tools : Tools Key) (a : Adapter Key) :
    (∀ b, canonicalPayload b = Sandbox.canonicalPayload b.sourceID b.balance b.currency b.asOf) ∧
    (∀ s s' : BalanceResponse,
      Sandbox.canonicalPayload s.sourceID s.balance s.currency s.asOf =
          Sandbox.canonicalPayload s'.sourceID s'.balance s'.currency s'.asOf →
        s.sourceID = s'.sourceID ∧ s.balance = s'.balance ∧ s.currency = s'.currency ∧
          s.asOf = s'.asOf) ∧
    ∀ Signed : List UInt8 → Prop,
      (∀ payload sig, verifySignature tools a.pubKey payload sig = .ok () → Signed payload) →
      ∀ tenantID labels outcome, FetchSigned tools a tenantID labels outcome →
        (∀ snapshot, outcome = .ok snapshot →
          snapshot.tenantID = tenantID ∧ snapshot.reserves.length = a.accounts.length ∧
            ∀ i : Fin a.accounts.length, ∃ b, Answered a labels i b ∧
              snapshot.reserves[(i : Nat)]? = some ⟨b.sourceID, b.balance, b.currency⟩ ∧
              Signed (Sandbox.canonicalPayload b.sourceID b.balance b.currency b.asOf)) ∧
        ∀ i err reply, some (i, ⟨.fail err, reply⟩) ∈ labels → ∃ err', outcome = .error err' := by
  refine ⟨canonicalPayload_eq, fun _ _ equal => Sandbox.canonicalPayload_inj equal, ?_⟩
  intro Signed unforgeable tenantID labels outcome fetched
  cases fetched with
  | unconfigured _ => exact ⟨fun _ equal => (nomatch equal), fun _ _ _ mem => (nomatch mem)⟩
  | unauthenticated _ _ => exact ⟨fun _ equal => (nomatch equal), fun _ _ _ mem => (nomatch mem)⟩
  | @joined token capturedAt _ target _ _ run returned =>
      have abstracts : Protocol.Abstracts (fun i => sourceProtocol tools a (a.accounts.get i) token)
          (fun _ q _ => ∀ last, q ≠ .fetching last) (fun _ => .fetching none)
          (sourcePool tools a token) :=
        fun i => fetchSource_follows tools a (a.accounts.get i) token
      rcases Protocol.exists_run abstracts run with ⟨positions, run, ended⟩
      have held := attests_of_run run
      unfold Group.wait
      cases err_eq : target.shared.err with
      | some err => exact ⟨fun _ equal => (nomatch equal), fun _ _ _ _ => ⟨err, rfl⟩⟩
      | none =>
          constructor
          · rintro snapshot ⟨⟩
            refine ⟨rfl, held.length_eq, fun i => ?_⟩
            have done : ∀ last, positions i ≠ .fetching last := by
              have follows := ended i
              rw [returned i] at follows
              exact follows
            cases phase : positions i with
            | fetching last => exact absurd phase (done last)
            | failed => exact absurd err_eq (held.failed i phase)
            | stored b =>
                rcases held.taken i b (by simp [phase, SourcePhase.taken]) with
                  ⟨answered, sig, verified⟩
                exact ⟨b, answered, held.stored i b phase, unforgeable _ sig verified⟩
          · intro i err reply mem
            exact absurd err_eq (held.failing i err reply mem)

/-! ## Two accounts at a server -/

/-- A custodian that has signed some statements: the digest of the first is 1, of the
second 2, and a signature repeats its digest. -/
def custodian (statements : List BalanceResponse) : Tools Unit where
  decodeBase64 text :=
    if text = "AQ==" then .ok [1] else if text = "Ag==" then .ok [2]
    else .error "illegal base64 data at input byte 0"
  sha256 payload := .ofNat 32 (((statements.map canonicalPayload).idxOf? payload).elim 0 (· + 1))
  verifyASN1 _ digest sig := digest.toNat ≠ 0 && sig = [UInt8.ofNat digest.toNat]

/-- Only payloads of the statements verify. -/
theorem custodian_unforgeable {statements : List BalanceResponse} {pub : Option Unit}
    {payload sig : List UInt8}
    (verified : verifySignature (custodian statements) pub payload sig = .ok ()) :
    payload ∈ statements.map canonicalPayload := by
  by_contra unsigned
  have digest : (custodian statements).sha256 payload = .ofNat 32 0 := by
    simp only [custodian, List.idxOf?_eq_none_iff.mpr unsigned, Option.elim_none]
  cases pub with
  | none => cases verified
  | some key =>
      unfold verifySignature at verified
      rw [digest] at verified
      cases verified

/-- A reply of the server to any request, with a response of its choice for each URL. -/
def serverCall {n : Nat} (answer : String → BalanceResponse) (i : Fin n) :
    (c : SourceCall) → Group → SourceReply c × Group
  | .authorize _, group => (.answered 200 (.ok "code"), group)
  | .token _, group => (.answered 200 (.ok "token"), group)
  | .balance endpoint _, group => (.answered 200 (.ok (answer endpoint)), group)
  | .wait _, group => (none, group)
  | .store reserve, group => ((), { group with reserves := group.reserves.set i reserve })
  | .fail err, group => ((), { group with err := group.err.or (some err) })

theorem serverCall_step {n : Nat} (answer : String → BalanceResponse) (i : Fin n) (c : SourceCall)
    (group : Group) :
    SourceStep i c group (serverCall answer i c group).1 (serverCall answer i c group).2 := by
  cases c <;> rfl

/-- An adapter for two accounts. -/
def sampleAdapter : Adapter Unit :=
  newAdapter ⟨"https://custodian.test", ["acct-a", "acct-b"], some (), "", 0, 0⟩

/-- Its first account. -/
def accountA : Fin sampleAdapter.accounts.length :=
  ⟨0, by decide⟩

/-- Its second account. -/
def accountB : Fin sampleAdapter.accounts.length :=
  ⟨1, by decide⟩

/-- The statement of the first account. -/
def statementA : BalanceResponse :=
  ⟨"acct-a", "100", "USD", "2026-01-01T00:00:00Z", "AQ=="⟩

/-- The statement of the second account. -/
def statementB : BalanceResponse :=
  ⟨"acct-b", "50", "USD", "2026-01-01T00:00:00Z", "Ag=="⟩

/-- The second account is answered first, and stored last. -/
def bothAnswered (answer : String → BalanceResponse) :
    List (Pool.Turn (Fin sampleAdapter.accounts.length) SourceCall SourceReply Group) :=
  [.thread accountB (serverCall answer accountB), .thread accountA (serverCall answer accountA),
    .thread accountA (serverCall answer accountA), .thread accountB (serverCall answer accountB)]

/-- The joined outcome of the two accounts. -/
theorem exists_fetchSigned (tools : Tools Unit) (answer : String → BalanceResponse)
    (reserves : List Reserve)
    (played : (∀ i, (((sourcePool tools sampleAdapter "").after (bothAnswered answer)).threads
        i).result? = some ()) ∧
      ((sourcePool tools sampleAdapter "").after (bothAnswered answer)).shared.wait "tenant" "now" =
        .ok ⟨"tenant", reserves, "now"⟩) :
    ∃ labels,
      FetchSigned tools sampleAdapter "tenant" labels (.ok ⟨"tenant", reserves, "now"⟩) := by
  have admitted : ∀ turn ∈ bothAnswered answer,
      turn.Admitted SourceStep fun _ _ => False := by
    simp [bothAnswered, Pool.Turn.Admitted, serverCall_step]
  rcases Pool.exists_run_after admitted (sourcePool tools sampleAdapter "") with ⟨labels, run⟩
  refine ⟨labels, ?_⟩
  rw [← played.2]
  exact .joined (by decide) (.ret _) run fun i => Program.eq_ret_of_result? (played.1 i)

theorem fetchSigned_attested_sample :
    ∃ labels, FetchSigned (custodian [statementA, statementB]) sampleAdapter "tenant" labels
        (.ok ⟨"tenant", [⟨"acct-a", "100", "USD"⟩, ⟨"acct-b", "50", "USD"⟩], "now"⟩) ∧
      ∃ b, Answered sampleAdapter labels accountB b ∧
        b.sourceID = "acct-b" ∧
        canonicalPayload b ∈ [statementA, statementB].map canonicalPayload := by
  have played := exists_fetchSigned (custodian [statementA, statementB])
    (fun endpoint =>
      if endpoint = balanceEndpoint sampleAdapter "acct-a" then statementA else statementB)
    [⟨"acct-a", "100", "USD"⟩, ⟨"acct-b", "50", "USD"⟩] (by decide +kernel)
  rcases played with ⟨labels, fetched⟩
  have attested := (fetchSigned_attested (custodian [statementA, statementB]) sampleAdapter).2.2 _
    (fun _ _ => custodian_unforgeable) _ _ _ fetched
  rcases (attested.1 _ rfl).2.2 accountB with ⟨b, answered, slot, signed⟩
  refine ⟨labels, fetched, b, answered, ?_, signed⟩
  exact (congrArg Reserve.sourceID (Option.some.inj slot)).symm

/-- The answer of the first account, replayed for the second, stands in for both. -/
theorem fetchSigned_replayed :
    sampleAdapter.accounts.Nodup ∧
      (∀ payload sig, verifySignature (custodian [statementA]) sampleAdapter.pubKey payload sig =
        .ok () → payload ∈ [statementA].map canonicalPayload) ∧
      (∃ labels, FetchSigned (custodian [statementA]) sampleAdapter "tenant" labels
        (.ok ⟨"tenant", [⟨"acct-a", "100", "USD"⟩, ⟨"acct-a", "100", "USD"⟩], "now"⟩)) ∧
      ¬ ∃ balance currency asOf, Sandbox.canonicalPayload "acct-b" balance currency asOf ∈
        [statementA].map canonicalPayload := by
  refine ⟨by decide, fun _ _ => custodian_unforgeable, ?_, ?_⟩
  · exact exists_fetchSigned _ (fun _ => statementA) _ (by decide +kernel)
  · rintro ⟨balance, currency, asOf, signed⟩
    have equal : Sandbox.canonicalPayload "acct-b" balance currency asOf =
        canonicalPayload statementA := List.mem_singleton.mp signed
    exact absurd (Sandbox.canonicalPayload_inj equal).1 (by decide)

end Solva.Orchestrator.Attested
