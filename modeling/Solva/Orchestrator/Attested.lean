import Solva.Codec.GoJson
import Solva.Orchestrator.Entity
import Solva.Transition.Protocol

/-!
# The attested reserve source

The adapter asks one server for the balance of each configured account, all at the
same time, and takes a balance only with a signature over its canonical payload.
The server may answer anything; `FetchSigned` relates what was asked and answered to
the outcome.
-/

namespace Solva.Orchestrator.Attested

open Codec Transition

/-! ## Responses -/

/-- `balanceResponse`. -/
structure BalanceResponse where
  sourceID : String
  balance : String
  currency : String
  asOf : String
  signature : String
  deriving DecidableEq

/-- What becomes of an HTTP request: it cannot be built, the server cannot be reached,
or there is a status and a body, which may fail to decode. -/
inductive HttpReply (Body : Type) where
  | unbuilt (text : String)
  | unreachable (text : String)
  | answered (status : Nat) (body : Except String Body)

/-- The standard library's decoder of base64 and its ECDSA. -/
structure Tools (Key : Type) where
  decodeBase64 : String → Except String (List UInt8)
  sha256 : List UInt8 → BytesN 32
  verifyASN1 : Key → BytesN 32 → List UInt8 → Bool

/-! ## The adapter -/

/-- `Config`, times in nanoseconds. -/
structure Config (Key : Type) where
  baseURL : String
  accounts : List String
  pubKey : Option Key
  clientID : String
  maxAttempts : Int
  baseBackoff : Int

/-- `Adapter`. -/
structure Adapter (Key : Type) where
  baseURL : String
  accounts : List String
  pubKey : Option Key
  clientID : String
  maxAttempts : Nat
  baseBackoff : Nat
  maxAttempts_pos : 0 < maxAttempts

/-- `defaultMaxAttempts`. -/
def defaultMaxAttempts : Nat :=
  3

/-- `defaultBaseBackoff` in nanoseconds. -/
def defaultBaseBackoff : Nat :=
  200 * 1000000

/-- `NewAdapter`. -/
def newAdapter {Key : Type} (c : Config Key) : Adapter Key where
  baseURL := c.baseURL
  accounts := c.accounts
  pubKey := c.pubKey
  clientID := c.clientID
  maxAttempts := if c.maxAttempts ≤ 0 then defaultMaxAttempts else c.maxAttempts.toNat
  baseBackoff := if c.baseBackoff ≤ 0 then defaultBaseBackoff else c.baseBackoff.toNat
  maxAttempts_pos := by
    split
    · decide
    · omega

/-! ## Checking a response -/

section Check

variable {Key : Type} (tools : Tools Key)

/-- `VerifySignature`. -/
def verifySignature (pub : Option Key) (payload sig : List UInt8) : Result Unit :=
  match pub with
  | none => .error (.plain "attested: nil public key")
  | some key =>
      if tools.verifyASN1 key (tools.sha256 payload) sig then .ok ()
      else .error (.plain "attested: ECDSA signature verification failed")

/-- `canonicalPayload`. -/
def canonicalPayload (b : BalanceResponse) : List UInt8 :=
  GoJson.marshal [("as_of", b.asOf), ("balance", b.balance), ("currency", b.currency),
    ("source_id", b.sourceID)]

/-- What `fetchBalance` makes of a reply. -/
def checkBalance (pub : Option Key) : HttpReply BalanceResponse → Result BalanceResponse
  | .unbuilt text => .error (.wrap "build balance request" (.plain text))
  | .unreachable text => .error (.transient (.wrap "fetch balance" (.plain text)))
  | .answered status body =>
      if 500 ≤ status then
        .error (.transient (.plain ("balance request status " ++ toString status)))
      else if status ≠ 200 then .error (.plain ("balance request status " ++ toString status))
      else
        match body with
        | .error text => .error (.wrap "decode balance" (.plain text))
        | .ok b =>
            match tools.decodeBase64 b.signature with
            | .error text => .error (.wrap "decode signature" (.plain text))
            | .ok sig => (verifySignature tools pub (canonicalPayload b) sig).map fun _ => b

/-- A response is taken only with a signature over its canonical payload. -/
theorem checkBalance_eq_ok {pub : Option Key} {reply : HttpReply BalanceResponse}
    {b : BalanceResponse} (ok : checkBalance tools pub reply = .ok b) :
    reply = .answered 200 (.ok b) ∧
      ∃ sig, verifySignature tools pub (canonicalPayload b) sig = .ok () := by
  cases reply with
  | unbuilt text => cases ok
  | unreachable text => cases ok
  | answered status body =>
      simp only [checkBalance] at ok
      split_ifs at ok with failed refused
      obtain rfl : status = 200 := not_not.mp refused
      cases body with
      | error text => cases ok
      | ok found =>
          dsimp only at ok
          cases decoded : tools.decodeBase64 found.signature with
          | error text => simp [decoded] at ok
          | ok sig =>
              simp only [decoded] at ok
              cases verified : verifySignature tools pub (canonicalPayload found) sig with
              | error err => simp [verified, Except.map] at ok
              | ok _ =>
                  rw [verified] at ok
                  cases ok
                  exact ⟨rfl, sig, verified⟩

/-- What `fetchToken` makes of a reply to one of its two requests. -/
def checkToken (request exchange missing : String) : HttpReply String → Result String
  | .unbuilt text => .error (.wrap ("build " ++ request ++ " request") (.plain text))
  | .unreachable text => .error (.wrap exchange (.plain text))
  | .answered status body =>
      if status ≠ 200 then .error (.plain (request ++ " status " ++ toString status))
      else
        match body with
        | .error text => .error (.wrap ("decode " ++ request) (.plain text))
        | .ok value =>
            if value = "" then .error (.plain ("attested: empty " ++ missing)) else .ok value

end Check

/-! ## Fetching -/

/-- The requests, the wait between two of them, and what the goroutine of an account
leaves in the group. -/
inductive SourceCall where
  | authorize (clientID : String)
  | token (code : String)
  | balance (endpoint token : String)
  | wait (delay : Nat)
  | store (reserve : Reserve)
  | fail (err : GoError)

/-- The replies; a wait may be cut short by the context's error. -/
abbrev SourceReply : SourceCall → Type
  | .authorize _ => HttpReply String
  | .token _ => HttpReply String
  | .balance _ _ => HttpReply BalanceResponse
  | .wait _ => Option GoError
  | .store _ => Unit
  | .fail _ => Unit

abbrev SourceM (α : Type) : Type :=
  Program SourceCall SourceReply α

section Fetch

variable {Key : Type} (tools : Tools Key) (a : Adapter Key)

/-- The URL of an account's balance. -/
def balanceEndpoint (account : String) : String :=
  a.baseURL ++ "/v1/accounts/" ++ account ++ "/balance"

/-- `fetchToken`. -/
def fetchToken : SourceM (Result String) := do
  let authRes : HttpReply String ← Program.perform (SourceCall.authorize a.clientID)
  match checkToken "authorize" "authorize" "authorization code" authRes with
  | .error err => pure (.error err)
  | .ok code =>
      let tokenRes : HttpReply String ← Program.perform (SourceCall.token code)
      pure (checkToken "token" "token exchange" "access token" tokenRes)

/-- The token of a batch, where a client id is configured. -/
def authenticate : SourceM (Result String) :=
  if a.clientID = "" then pure (.ok "")
  else do
    let token ← fetchToken a
    pure (token.mapError (.wrap "authenticate"))

/-- `fetchBalance`. -/
def fetchBalance (account token : String) : SourceM (Result BalanceResponse) := do
  let reply : HttpReply BalanceResponse ←
    Program.perform (SourceCall.balance (balanceEndpoint a account) token)
  pure (checkBalance tools a.pubKey reply)

/-- The loop of `fetchWithRetry`, from the attempts that are left. -/
def fetchFrom (account token : String) : Nat → Nat → SourceM (Result BalanceResponse)
  | 0, _ => pure (.error (.plain "after 0 attempts: %!w(<nil>)"))
  | left + 1, backoff => do
      let result ← fetchBalance tools a account token
      match result with
      | .ok resp => pure (.ok resp)
      | .error err =>
          if ¬ err.isTransient then pure (.error err)
          else if left = 0 then
            pure (.error (.wrap ("after " ++ toString a.maxAttempts ++ " attempts") err))
          else
            let cancelled : Option GoError ← Program.perform (SourceCall.wait backoff)
            match cancelled with
            | some err => pure (.error err)
            | none => fetchFrom account token left (backoff * 2)

/-- `fetchWithRetry`. -/
def fetchWithRetry (account token : String) : SourceM (Result BalanceResponse) :=
  fetchFrom tools a account token a.maxAttempts a.baseBackoff

/-- The figure of a response. -/
def toReserve (b : BalanceResponse) : Reserve :=
  ⟨b.sourceID, b.balance, b.currency⟩

/-- The goroutine of an account. -/
def fetchSource (account token : String) : SourceM Unit := do
  let result ← fetchWithRetry tools a account token
  match result with
  | .ok resp => Program.perform (SourceCall.store (toReserve resp))
  | .error err => Program.perform (SourceCall.fail (.wrap ("source " ++ account) err))

end Fetch

/-! ## The group -/

/-- The slots of the goroutines and the group's error. -/
structure Group where
  reserves : List Reserve
  err : Option GoError

/-- `group.Wait` and what follows it. -/
def Group.wait (tenantID capturedAt : String) (group : Group) : Result ReserveSnapshot :=
  match group.err with
  | some err => .error err
  | none => .ok ⟨tenantID, group.reserves, capturedAt⟩

/-- A step of a goroutine: each writes its own slot, the first error stays, and any
request may be answered anything. -/
def SourceStep {n : Nat} (i : Fin n) (c : SourceCall) (group : Group) (_ : SourceReply c)
    (next : Group) : Prop :=
  match c with
  | .store reserve => next = { group with reserves := group.reserves.set i reserve }
  | .fail err => next = { group with err := group.err.or (some err) }
  | _ => next = group

section FetchSigned

variable {Key : Type} (tools : Tools Key) (a : Adapter Key)

/-- The goroutines of a batch. -/
def sourcePool (token : String) :
    Pool (Fin a.accounts.length) SourceCall SourceReply Unit Group where
  threads i := fetchSource tools a a.accounts[i] token
  shared := ⟨List.replicate a.accounts.length ⟨"", "", ""⟩, none⟩

/-- `FetchSigned`: the outcomes it may have, with the calls of its goroutines. -/
inductive FetchSigned (tenantID : String) :
    List (Option (Fin a.accounts.length × Performed SourceCall SourceReply)) →
      Result ReserveSnapshot → Prop
  | unconfigured : a.accounts = [] →
      FetchSigned tenantID [] (.error (.plain "attested: no reserve sources configured"))
  | unauthenticated {err : GoError} : a.accounts ≠ [] → (authenticate a).Yields (.error err) →
      FetchSigned tenantID [] (.error err)
  | joined {token capturedAt : String}
      {labels : List (Option (Fin a.accounts.length × Performed SourceCall SourceReply))}
      {target : Pool (Fin a.accounts.length) SourceCall SourceReply Unit Group} :
      a.accounts ≠ [] → (authenticate a).Yields (.ok token) →
      Run (Pool.Interleaved SourceStep fun _ _ => False) (sourcePool tools a token) labels target →
      (∀ i, target.threads i = .ret ()) →
      FetchSigned tenantID labels (target.shared.wait tenantID capturedAt)

end FetchSigned

end Solva.Orchestrator.Attested
