import Solva.Stellar.Publisher
import Solva.Transition.History

/-!
# What the publisher authorises

Whatever the RPC answers, the transactions it is sent call `publish_proof` on the
target with the encoded arguments. Their authorization entries are those of the
simulation, in order: entries of the source account as they came, entries of an
address signed over the invocation that came with them, whatever it is.
-/

namespace Solva.Stellar

open Bn254 Codec Orchestrator Transition

/-- The calls made so far. -/
abbrev RpcHistory : Type :=
  List (Performed RpcCall RpcReply)

section Authorised

variable (sdk : Sdk) (networkPassphrase address : String) (hostFn : InvokeContractArgs)

/-- An operation before it is simulated. -/
def bareOperation : InvokeHostFunction :=
  ⟨hostFn, address, none, []⟩

/-- What becomes of an authorization entry of a simulation. -/
inductive Attached (made : RpcHistory) (expiration : UInt32) (raw : String) : AuthEntry → Prop
  | asGiven {entry : AuthEntry} : sdk.decodeAuth raw = .ok entry →
      entry.credentials = .sourceAccount → Attached made expiration raw entry
  | signed {entry : AuthEntry} {credentials : AddressCredentials} {payload : BytesN 32}
      {sig pubKey : List UInt8} : sdk.decodeAuth raw = .ok entry →
      entry.credentials = .address credentials →
      authPayloadHash sdk networkPassphrase credentials.nonce expiration entry.rootInvocation =
        .ok payload →
      ⟨.sign payload, .ok sig⟩ ∈ made → sdk.decodeAccountID address = .ok pubKey →
      Attached made expiration raw ⟨.address { credentials with
        signatureExpirationLedger := expiration
        signature := ed25519SignaturesScVal pubKey sig }, entry.rootInvocation⟩

/-- The answer of a simulation of the bare call, and the entries of its first result. -/
structure SimulatedAs (made : RpcHistory) (sim : SimulateResponse) (raws : List String) : Prop where
  answered : ∃ tx, tx.operation = bareOperation address hostFn ∧
    ⟨.simulateTransaction tx, .ok sim⟩ ∈ made
  accepted : sim.error = "" ∧ sim.restorePreamble = false
  entries : ∃ auth rest, sim.results = auth :: rest ∧ raws = auth.getD []

/-- The entries of an operation are those of a simulation. -/
def Authorised (made : RpcHistory) (op : InvokeHostFunction) : Prop :=
  op.hostFunction = hostFn ∧ op.sourceAccount = address ∧
    ∃ sim raws, SimulatedAs address hostFn made sim raws ∧
      List.Forall₂ (Attached sdk networkPassphrase address made
        (sim.latestLedger + authExpirationLedgers)) raws op.auth

/-- A payload is that of an address entry of a simulation. -/
def AskedToSign (made : RpcHistory) (payload : BytesN 32) : Prop :=
  ∃ sim raws raw entry credentials, SimulatedAs address hostFn made sim raws ∧ raw ∈ raws ∧
    sdk.decodeAuth raw = .ok entry ∧ entry.credentials = .address credentials ∧
    authPayloadHash sdk networkPassphrase credentials.nonce
      (sim.latestLedger + authExpirationLedgers) entry.rootInvocation = .ok payload

/-- What may be called after a history. -/
def MayCall (made : RpcHistory) : RpcCall → Prop
  | .simulateTransaction tx => tx.sourceAccount = address ∧
      (tx.operation = bareOperation address hostFn ∨
        Authorised sdk networkPassphrase address hostFn made tx.operation)
  | .sign payload => AskedToSign sdk networkPassphrase address hostFn made payload
  | .signTransaction tx => tx.sourceAccount = address ∧
      Authorised sdk networkPassphrase address hostFn made tx.operation
  | .sendTransaction signed => signed.tx.sourceAccount = address ∧
      Authorised sdk networkPassphrase address hostFn made signed.tx.operation ∧
      ⟨.signTransaction signed.tx, .ok signed.signature⟩ ∈ made
  | _ => True

variable {sdk networkPassphrase address hostFn}

/-! ## A history grows -/

theorem Attached.mono {made later : RpcHistory} {expiration : UInt32} {raw : String}
    {entry : AuthEntry}
    (attached : Attached sdk networkPassphrase address made expiration raw entry)
    (grown : made ⊆ later) : Attached sdk networkPassphrase address later expiration raw entry := by
  cases attached with
  | asGiven decoded source => exact .asGiven decoded source
  | signed decoded credentials hashed signed key =>
      exact .signed decoded credentials hashed (grown signed) key

theorem SimulatedAs.mono {made later : RpcHistory} {sim : SimulateResponse} {raws : List String}
    (simulated : SimulatedAs address hostFn made sim raws) (grown : made ⊆ later) :
    SimulatedAs address hostFn later sim raws := by
  rcases simulated.answered with ⟨tx, bare, answered⟩
  exact ⟨⟨tx, bare, grown answered⟩, simulated.accepted, simulated.entries⟩

theorem Authorised.mono {made later : RpcHistory} {op : InvokeHostFunction}
    (authorised : Authorised sdk networkPassphrase address hostFn made op) (grown : made ⊆ later) :
    Authorised sdk networkPassphrase address hostFn later op := by
  rcases authorised with ⟨call, source, sim, raws, simulated, attached⟩
  exact ⟨call, source, sim, raws, simulated.mono grown,
    attached.imp fun _ _ here => here.mono grown⟩

/-! ## The parts of an attempt -/

/-- What a part of a publish calls, and what its value meets. -/
abbrev Publishes {α : Type} (sdk : Sdk) (networkPassphrase address : String)
    (hostFn : InvokeContractArgs) (made : RpcHistory) (part : RpcM α)
    (post : RpcHistory → α → Prop) : Prop :=
  Ensures (MayCall sdk networkPassphrase address hostFn) made part post

variable {made : RpcHistory} {α : Type} {post : RpcHistory → α → Prop}

theorem sdkStep_publishes (context : String) {result : Except String α}
    (holds : ∀ value, result = .ok value → post made value) :
    Publishes sdk networkPassphrase address hostFn made (sdkStep context result) post := by
  apply Ensures.of_result
  intro value equal
  cases result with
  | error text => cases equal
  | ok found => exact holds value (by cases equal; rfl)

theorem within_publishes (context : String) {part : RpcM α}
    (publishes : Publishes sdk networkPassphrase address hostFn made part post) :
    Publishes sdk networkPassphrase address hostFn made (within context part) post :=
  publishes.mapError _

theorem newTransaction_publishes (context : String) (seq : Int) (op : InvokeHostFunction) :
    Publishes sdk networkPassphrase address hostFn made (newTransaction sdk address context seq op)
      fun _ tx => tx.sourceAccount = address ∧ tx.operation = op := by
  unfold newTransaction
  apply Ensures.bind (fun _ _ => True) (Ensures.call trivial fun _ _ _ => trivial)
  intro later now _ _
  apply sdkStep_publishes
  intro tx built
  cases invalid : sdk.invalid ⟨address, seq + 1, op, baseFee, now + txTimeoutSeconds⟩ with
  | some text =>
      rw [invalid] at built
      cases built
  | none =>
      rw [invalid] at built
      cases built
      exact ⟨rfl, rfl⟩

/-- A signature is asked for the invocation that came with the entry. -/
theorem signWalletAuth_publishes {credentials : AddressCredentials} {entry : AuthEntry}
    {sim : SimulateResponse} {raws : List String} {raw : String}
    (simulated : SimulatedAs address hostFn made sim raws) (mem : raw ∈ raws)
    (decoded : sdk.decodeAuth raw = .ok entry)
    (address_eq : entry.credentials = .address credentials) :
    Publishes sdk networkPassphrase address hostFn made
      (signWalletAuth sdk networkPassphrase address credentials entry.rootInvocation
        (sim.latestLedger + authExpirationLedgers))
      fun later signed => Attached sdk networkPassphrase address later
        (sim.latestLedger + authExpirationLedgers) raw ⟨.address signed, entry.rootInvocation⟩ := by
  unfold signWalletAuth
  apply Ensures.bind (fun _ payload => authPayloadHash sdk networkPassphrase credentials.nonce
    (sim.latestLedger + authExpirationLedgers) entry.rootInvocation = .ok payload)
  · exact Ensures.of_result fun payload hashed => hashed
  intro hashedBy payload grown hashed
  apply Ensures.bind fun later signed => ⟨.sign payload, signed⟩ ∈ later
  · have asked : AskedToSign sdk networkPassphrase address hostFn hashedBy payload :=
      ⟨sim, raws, raw, entry, credentials, simulated.mono grown, mem, decoded, address_eq, hashed⟩
    apply Ensures.call asked
    rintro reply _ ⟨⟩
    exact List.mem_append_right _ (List.mem_singleton_self _)
  intro signedBy signed _ asked
  apply Ensures.bind fun _ sig => signed = .ok sig
  · exact sdkStep_publishes _ fun sig equal => equal
  rintro later sig later_grown rfl
  apply Ensures.bind fun _ pubKey => sdk.decodeAccountID address = .ok pubKey
  · exact sdkStep_publishes _ fun pubKey equal => equal
  intro last pubKey last_grown key
  apply Ensures.pure
  exact .signed decoded address_eq hashed (last_grown (later_grown asked)) key

/-- The entries of a simulation are attached in their order. -/
theorem applyAuth_publishes {sim : SimulateResponse} {raws left : List String}
    (simulated : SimulatedAs address hostFn made sim raws) (mem : ∀ raw ∈ left, raw ∈ raws) :
    Publishes sdk networkPassphrase address hostFn made
      (applyAuth sdk networkPassphrase address (sim.latestLedger + authExpirationLedgers) left)
      fun later applied => List.Forall₂ (Attached sdk networkPassphrase address later
        (sim.latestLedger + authExpirationLedgers)) left applied.1 := by
  induction left generalizing made with
  | nil => exact Ensures.pure .nil
  | cons raw left ih =>
      unfold applyAuth
      apply Ensures.bind fun _ entry => sdk.decodeAuth raw = .ok entry
      · exact sdkStep_publishes _ fun entry equal => equal
      intro middle entry grown decoded
      have here : raw ∈ raws := mem raw List.mem_cons_self
      have rest : ∀ raw ∈ left, raw ∈ raws := fun raw in_left =>
        mem raw (List.mem_cons_of_mem _ in_left)
      cases credentials_eq : entry.credentials with
      | sourceAccount =>
          apply Ensures.bind _ (ih (simulated.mono grown) rest)
          rintro later ⟨entries, walletAuth⟩ _ attached
          exact Ensures.pure (.cons (.asGiven decoded credentials_eq) attached)
      | address credentials =>
          apply Ensures.bind _ (within_publishes _
            (signWalletAuth_publishes (simulated.mono grown) here decoded credentials_eq))
          intro signedBy signed signed_grown first
          apply Ensures.bind _ (ih ((simulated.mono grown).mono signed_grown) rest)
          rintro later ⟨entries, walletAuth⟩ later_grown attached
          exact Ensures.pure (.cons (first.mono later_grown) attached)

theorem resourcesOf_publishes (context : String) (sim : SimulateResponse) :
    Publishes sdk networkPassphrase address hostFn made (resourcesOf sdk context sim)
      fun _ _ => True := by
  apply Ensures.bind (fun _ _ => True) (sdkStep_publishes _ fun _ _ => trivial)
  exact fun _ _ _ _ => Ensures.pure trivial

/-- The operation after its simulation. -/
theorem applySimulation_publishes {sim : SimulateResponse} {auth : Option (List String)}
    (simulated : SimulatedAs address hostFn made sim (auth.getD [])) :
    Publishes sdk networkPassphrase address hostFn made
      (applySimulation sdk networkPassphrase address (bareOperation address hostFn) sim auth)
      fun later applied => Authorised sdk networkPassphrase address hostFn later applied.1 := by
  unfold applySimulation
  apply Ensures.bind _ (resourcesOf_publishes _ sim)
  intro middle data grown _
  cases auth with
  | none => exact Ensures.pure ⟨rfl, rfl, sim, [], simulated.mono grown, .nil⟩
  | some raws =>
      apply Ensures.bind _ (applyAuth_publishes (simulated.mono grown) fun _ mem => mem)
      rintro later ⟨entries, walletAuth⟩ later_grown attached
      exact Ensures.pure ⟨rfl, rfl, sim, raws, (simulated.mono grown).mono later_grown, attached⟩

theorem resimulateWithAuth_publishes {op : InvokeHostFunction} (seq : Int)
    (authorised : Authorised sdk networkPassphrase address hostFn made op) :
    Publishes sdk networkPassphrase address hostFn made (resimulateWithAuth sdk address op seq)
      fun later ready => Authorised sdk networkPassphrase address hostFn later ready := by
  unfold resimulateWithAuth
  apply Ensures.bind _ (newTransaction_publishes _ seq op)
  rintro built tx grown ⟨source, rfl⟩
  apply Ensures.bind (fun _ _ => True) (sdkStep_publishes _ fun _ _ => trivial)
  intro encoded _ encoded_grown _
  have before := (authorised.mono grown).mono encoded_grown
  apply Ensures.bind (fun _ _ => True) (Ensures.call ⟨source, .inr before⟩ fun _ _ _ => trivial)
  intro answered sim answered_grown _
  split
  · exact Ensures.throw _
  · apply Ensures.bind _ (resourcesOf_publishes _ sim)
    intro later data later_grown _
    rcases before.mono (List.Subset.trans answered_grown later_grown) with ⟨call, caller, entries⟩
    exact Ensures.pure ⟨call, caller, entries⟩

/-- A transaction is assembled from what its simulation returned. -/
theorem assembleSimulated_publishes {sim : SimulateResponse} {auth : Option (List String)}
    (seq : Int) (simulated : SimulatedAs address hostFn made sim (auth.getD [])) :
    Publishes sdk networkPassphrase address hostFn made
      (assembleSimulated sdk networkPassphrase address hostFn seq sim auth) fun later tx =>
        tx.sourceAccount = address ∧
          Authorised sdk networkPassphrase address hostFn later tx.operation := by
  have finish (later : RpcHistory) (ready : InvokeHostFunction)
      (authorised : Authorised sdk networkPassphrase address hostFn later ready) :
      Publishes sdk networkPassphrase address hostFn later
        (newTransaction sdk address "assemble transaction" seq ready)
        fun last tx => tx.sourceAccount = address ∧
          Authorised sdk networkPassphrase address hostFn last tx.operation := by
    apply (newTransaction_publishes _ seq ready).weaken
    rintro last tx grown ⟨source, rfl⟩
    exact ⟨source, authorised.mono grown⟩
  apply Ensures.bind _ (within_publishes _ (applySimulation_publishes simulated))
  rintro applied ⟨op, walletAuth⟩ _ authorised
  cases walletAuth with
  | true =>
      apply Ensures.bind _ (resimulateWithAuth_publishes seq authorised)
      exact fun later ready _ ready_authorised => finish later ready ready_authorised
  | false => exact finish applied op authorised

theorem assemble_publishes :
    Publishes sdk networkPassphrase address hostFn made
      (assemble sdk networkPassphrase address hostFn) fun later tx =>
        tx.sourceAccount = address ∧
          Authorised sdk networkPassphrase address hostFn later tx.operation := by
  unfold assemble
  apply Ensures.bind (fun _ _ => True) (Ensures.call trivial fun _ _ _ => trivial)
  intro loaded account _ _
  apply Ensures.bind (fun _ _ => True) (within_publishes _ (Ensures.of_result fun _ _ => trivial))
  intro read seq _ _
  apply Ensures.bind _ (newTransaction_publishes _ seq (bareOperation address hostFn))
  intro built simTx _ ⟨source, bare⟩
  apply Ensures.bind (fun _ _ => True) (sdkStep_publishes _ fun _ _ => trivial)
  intro encoded _ _ _
  apply Ensures.bind fun later sim => ⟨.simulateTransaction simTx, .ok sim⟩ ∈ later
  · apply Ensures.call ⟨source, .inl bare⟩
    intro reply sim equal
    cases reply with
    | error err => cases equal
    | ok found =>
        cases equal
        exact List.mem_append_right _ (List.mem_singleton_self _)
  intro answered sim _ simulated
  split_ifs with rejected archived
  · exact Ensures.throw _
  · exact Ensures.throw _
  · cases results : sim.results with
    | nil => exact Ensures.throw _
    | cons auth rest =>
        exact assembleSimulated_publishes seq ⟨⟨simTx, bare, simulated⟩,
          ⟨not_not.mp rejected, eq_false_of_ne_true archived⟩, auth, rest, results, rfl⟩

theorem pollRound_publishes (hash : String) {again : RpcM U64}
    (rest : ∀ later, Publishes sdk networkPassphrase address hostFn later again fun _ _ => True) :
    Publishes sdk networkPassphrase address hostFn made (pollRound sdk hash again)
      fun _ _ => True := by
  apply Ensures.bind (fun _ _ => True) (Ensures.call trivial fun _ _ _ => trivial)
  intro answered got _ _
  split_ifs
  · exact Ensures.of_result fun _ _ => trivial
  · exact Ensures.throw _
  · exact rest answered
  · exact Ensures.throw _

theorem pollFrom_publishes (hash : String) (left : Nat) :
    Publishes sdk networkPassphrase address hostFn made (pollFrom sdk hash left)
      fun _ _ => True := by
  induction left generalizing made with
  | zero =>
      apply pollRound_publishes
      intro answered
      apply Ensures.bind (fun _ _ => True) (Ensures.call trivial fun _ _ _ => trivial)
      exact fun _ _ _ _ => Ensures.throw _
  | succ left ih =>
      apply pollRound_publishes
      intro answered
      apply Ensures.bind (fun _ _ => True) (Ensures.call trivial fun _ _ _ => trivial)
      intro checked late _ _
      split
      · exact Ensures.throw _
      · apply Ensures.bind (fun _ _ => True) (Ensures.call trivial fun _ _ _ => trivial)
        intro waited cancelled _ _
        cases cancelled with
        | some err => exact Ensures.throw err.toError
        | none => exact ih

/-- What is signed and sent is the transaction that was built. -/
theorem submit_publishes {tx : Transaction} (source : tx.sourceAccount = address)
    (authorised : Authorised sdk networkPassphrase address hostFn made tx.operation) :
    Publishes sdk networkPassphrase address hostFn made (submit sdk tx) fun _ _ => True := by
  unfold submit
  apply Ensures.bind fun later signed => ⟨.signTransaction tx, signed⟩ ∈ later
  · apply Ensures.call ⟨source, authorised⟩
    rintro reply _ ⟨⟩
    exact List.mem_append_right _ (List.mem_singleton_self _)
  intro signedBy signed signed_grown asked
  apply Ensures.bind fun _ signature => signed = .ok signature
  · exact sdkStep_publishes _ fun _ equal => equal
  rintro later signature later_grown rfl
  apply Ensures.bind (fun _ _ => True) (sdkStep_publishes _ fun _ _ => trivial)
  intro encoded _ encoded_grown _
  apply Ensures.bind (fun _ _ => True) (sdkStep_publishes _ fun _ _ => trivial)
  intro hashed hash hashed_grown _
  have grown := List.Subset.trans (List.Subset.trans later_grown encoded_grown) hashed_grown
  apply Ensures.bind (fun _ _ => True)
  · apply Ensures.call
    · exact ⟨source, authorised.mono (List.Subset.trans signed_grown grown), grown asked⟩
    · exact fun _ _ _ => trivial
  intro sent send _ _
  split_ifs
  · exact pollFrom_publishes hash _
  · exact Ensures.throw _
  · exact Ensures.throw _
  · exact Ensures.throw _

/-! ## A publish -/

theorem invokeOnce_publishes :
    Publishes sdk networkPassphrase address hostFn made
      (invokeOnce sdk networkPassphrase address hostFn) fun _ _ => True := by
  apply Ensures.bind _ assemble_publishes
  rintro assembled tx _ ⟨source, authorised⟩
  exact submit_publishes source authorised

theorem invokeFrom_publishes (left backoff : Nat) :
    Publishes sdk networkPassphrase address hostFn made
      (invokeFrom sdk networkPassphrase address hostFn left backoff) fun _ _ => True := by
  induction left generalizing made backoff with
  | zero => exact Ensures.throw _
  | succ left ih =>
      unfold invokeFrom
      apply Protocol.Follows.bind invokeOnce_publishes
      rintro later result ⟨grown, _⟩
      cases result with
      | ok id => exact ⟨grown, fun _ _ => trivial⟩
      | error err =>
          dsimp only
          split
          · exact ⟨grown, fun _ _ => trivial⟩
          split
          · exact ⟨grown, fun _ _ => trivial⟩
          refine ⟨trivial, fun cancelled => ?_⟩
          cases cancelled with
          | some err =>
              exact ⟨List.Subset.trans grown (List.subset_append_left _ _), fun _ _ => trivial⟩
          | none =>
              apply Protocol.Follows.mono (ih (backoff * 2))
              rintro last _ ⟨further, _⟩
              have waited := List.Subset.trans (List.subset_append_left later _) further
              exact ⟨List.Subset.trans grown waited, fun _ _ => trivial⟩

end Authorised

/-- The call that a publish is about. -/
theorem publishCall_eq_ok {sdk : Sdk} {target : TenantContract} {proof : List UInt8}
    {pub : PublicInputs} {hostFn : InvokeContractArgs}
    (called : publishCall sdk target proof pub = .ok hostFn) :
    contractAddress sdk target.contractID = .ok hostFn.contractAddress ∧
      hostFn.functionName = "publish_proof" ∧ encodeArgs proof pub = .ok hostFn.args := by
  unfold publishCall at called
  cases args : encodeArgs proof pub with
  | error err => simp [args, Except.mapError, bind, Except.bind] at called
  | ok encoded =>
      cases contract : contractAddress sdk target.contractID with
      | error err => simp [args, contract, Except.mapError, bind, Except.bind] at called
      | ok decoded =>
          simp only [args, contract, Except.mapError, bind, Except.bind, pure, Except.pure,
            Except.ok.injEq] at called
          subst called
          exact ⟨rfl, rfl, rfl⟩

/-- Every call of a publish, whatever the RPC answers: transactions are for the call of
`publish_proof` on the target with the encoded arguments and with the entries of its
simulation, and signatures over authorization payloads are asked for those entries. -/
theorem publishProof_authorises (sdk : Sdk) (p : Publisher) (target : TenantContract)
    (proof : List UInt8) (pub : PublicInputs) {made earlier later : RpcHistory}
    {performed : Performed RpcCall RpcReply} {rest : Program RpcCall RpcReply (Result U64)}
    (performs : Performs (publishProof sdk p target proof pub).run made rest)
    (made_eq : made = earlier ++ performed :: later) :
    ∃ address hostFn, p.signer = some address ∧
      contractAddress sdk target.contractID = .ok hostFn.contractAddress ∧
      hostFn.functionName = "publish_proof" ∧ encodeArgs proof pub = .ok hostFn.args ∧
      MayCall sdk p.networkPassphrase address hostFn earlier performed.call := by
  unfold publishProof at performs
  cases signer : p.signer with
  | none =>
      rw [signer] at performs
      simp [performs.eq_nil.1] at made_eq
  | some address =>
      rw [signer] at performs
      dsimp only at performs
      split at performs
      · simp [performs.eq_nil.1] at made_eq
      cases called : publishCall sdk target proof pub with
      | error err =>
          rw [called] at performs
          simp [performs.eq_nil.1] at made_eq
      | ok hostFn =>
          rw [called] at performs
          rcases publishCall_eq_ok called with ⟨contract, function, args⟩
          refine ⟨address, hostFn, rfl, contract, function, args, ?_⟩
          exact (invokeFrom_publishes _ _).allowed_of_performs performs made_eq

/-! ## A simulation of the RPC's choice -/

/-- The credentials of a wallet. -/
def walletCredentials : Credentials :=
  .address ⟨[1], 7, 0, .vec []⟩

/-- An entry for a call of one function. -/
def walletEntry (functionName : String) : AuthEntry :=
  ⟨walletCredentials, .node (.contractFn ⟨.ofNat 32 1, functionName, []⟩) []⟩

/-- An SDK in which an encoded entry is the name of its function. -/
def sampleSdk : Sdk where
  sha256 bytes := .ofNat 32 bytes.length
  decodeContract text := if text = "CTARGET" then .ok [1] else .error "invalid contract id"
  decodeAccountID _ := .ok [2]
  decodeData _ := .ok ⟨[], 0⟩
  decodeAuth text := .ok (walletEntry text)
  decodeMeta _ := .ok (.v3 (some (.u64 7)))
  resultCode _ := none
  marshalPreimage preimage := .ok (preimage.networkID.bytes)
  invalid _ := none
  encode _ := .ok ()
  encodeSigned _ := .ok ()
  hashHex _ := .ok "ab"

/-- An RPC whose simulation asks for one wallet authorization. -/
def simulatingCall (functionName : String) : (c : RpcCall) → RpcReply c
  | .loadAccount _ => .ok (.ok 100)
  | .simulateTransaction _ => .ok ⟨"", false, [some [functionName]], "", 12345, 5000⟩
  | .sendTransaction _ => .ok ⟨"PENDING", ""⟩
  | .getTransaction _ => .ok ⟨"SUCCESS", "", ""⟩
  | .sign _ => .ok [3]
  | .signTransaction _ => .ok [4]
  | .now => 1767225600
  | .pastDeadline _ => false
  | .wait _ => none

def samplePublisher : Publisher :=
  ⟨"Test SDF Network ; September 2015", some "GSIGNER", true⟩

def sampleInputs : PublicInputs :=
  { reservesTotal := "1000000"
    liabilitiesTotal := "950000"
    prevReserves := "900000"
    rootHash := String.ofList (List.replicate 64 'a') }

/-- A publish against such an RPC. -/
def samplePublish : Program RpcCall RpcReply (Result U64) :=
  (publishProof sampleSdk samplePublisher ⟨"CTARGET", "testnet"⟩ [1, 2] sampleInputs).run

/-- The functions that the wallet entries of the transactions sent authorise. -/
def walletFunctions (made : RpcHistory) : List String :=
  made.flatMap fun performed =>
    match performed.call with
    | .sendTransaction signed => signed.tx.operation.auth.filterMap fun entry =>
        match entry with
        | ⟨.address _, .node (.contractFn call) _⟩ => some call.functionName
        | _ => none
    | _ => []

/-- The ninth call of the publish is that of sending its transaction. -/
theorem publishProof_authorises_sample :
    ∃ (earlier later : RpcHistory) (performed : Performed RpcCall RpcReply),
      samplePublish.transcript (simulatingCall "publish_proof") = earlier ++ performed :: later ∧
        walletFunctions [performed] = ["publish_proof"] ∧
        ∃ address hostFn, samplePublisher.signer = some address ∧
          encodeArgs [1, 2] sampleInputs = .ok hostFn.args ∧
          MayCall sampleSdk samplePublisher.networkPassphrase address hostFn earlier
            performed.call := by
  rcases exists_performs_transcript (simulatingCall "publish_proof") samplePublish with
    ⟨rest, performs⟩
  have long : 8 < (samplePublish.transcript (simulatingCall "publish_proof")).length := by
    decide +kernel
  have sends : ((samplePublish.transcript (simulatingCall "publish_proof"))[8]?.map fun performed =>
      walletFunctions [performed]) = some ["publish_proof"] := by decide +kernel
  rw [List.getElem?_eq_getElem long] at sends
  have made_eq := (List.take_append_drop 8
    (samplePublish.transcript (simulatingCall "publish_proof"))).symm
  rw [← List.getElem_cons_drop long] at made_eq
  rcases publishProof_authorises sampleSdk samplePublisher ⟨"CTARGET", "testnet"⟩ [1, 2]
    sampleInputs performs made_eq with ⟨address, hostFn, signer, _, _, args, may⟩
  exact ⟨_, _, _, made_eq, Option.some.inj sends, address, hostFn, signer, args, may⟩

/-- The RPC has a transfer from the wallet signed. -/
theorem publishProof_signs_transfer :
    walletFunctions (samplePublish.transcript (simulatingCall "transfer")) = ["transfer"] ∧
      ¬ ∀ made rest, Performs samplePublish made rest →
        ∀ name ∈ walletFunctions made, name = "publish_proof" := by
  have attached : walletFunctions (samplePublish.transcript (simulatingCall "transfer")) =
      ["transfer"] := by decide +kernel
  refine ⟨attached, fun own => ?_⟩
  rcases exists_performs_transcript (simulatingCall "transfer") samplePublish with ⟨rest, performs⟩
  have name := own _ rest performs "transfer" (by rw [attached]; exact List.mem_singleton_self _)
  exact absurd name (by decide)

end Solva.Stellar
