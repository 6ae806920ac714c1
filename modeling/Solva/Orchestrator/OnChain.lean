import Solva.Orchestrator.Attested
import Solva.Orchestrator.Stroops

/-!
# The on-chain reserve source

The adapter sums balances of ledger accounts: each holding of its configuration names a
tenant, an account and an asset, and the figure is the balance of that asset on that
account. Horizon may answer anything.
-/

namespace Solva.Orchestrator.OnChain

open Codec
open Attested (HttpReply)

/-! ## Configuration -/

/-- `strings.Cut`, where the separator is found. -/
def cut (separator : Char) (text : List Char) : Option (List Char × List Char) :=
  if separator ∈ text then
    some (text.takeWhile (· ≠ separator), (text.dropWhile (· ≠ separator)).drop 1)
  else none

/-- `strings.TrimSpace`. -/
def trimmed (text : List Char) : String :=
  String.ofList (Text.trimSpace text)

structure Holding where
  tenant : String
  address : String
  code : String
  issuer : String
  deriving DecidableEq

/-- The body of the loop of `ParseHoldings`; `strkey.IsValidEd25519PublicKey` is a
parameter. -/
def parseHolding (isValidEd25519PublicKey : String → Bool) (spec : String) : Result Holding :=
  let withAddress (h : Holding) : Result Holding :=
    if isValidEd25519PublicKey h.address then .ok h
    else .error (.plain ("onchain: holding " ++ quote spec ++ " has an invalid account address"))
  match cut '=' spec.toList with
  | none =>
      .error (.plain ("onchain: holding " ++ quote spec ++
        " must start with a tenant id: TENANT=ADDRESS"))
  | some (tenant, holding) =>
      if trimmed tenant = "" then
        .error (.plain ("onchain: holding " ++ quote spec ++
          " must start with a tenant id: TENANT=ADDRESS"))
      else
        match holding.splitOn '|' with
        | [address] => withAddress ⟨trimmed tenant, trimmed address, "", ""⟩
        | [address, code, issuer] =>
            if trimmed code = "" ∨ trimmed issuer = "" then
              .error (.plain ("onchain: holding " ++ quote spec ++
                " needs both an asset code and an issuer"))
            else if isValidEd25519PublicKey (trimmed issuer) then
              withAddress ⟨trimmed tenant, trimmed address, trimmed code, trimmed issuer⟩
            else
              .error (.plain ("onchain: holding " ++ quote spec ++
                " has an invalid issuer address"))
        | _ =>
            .error (.plain ("onchain: holding " ++ quote spec ++
              " must be ADDRESS or ADDRESS|CODE|ISSUER"))

/-- `ParseHoldings`. -/
def parseHoldings (isValidEd25519PublicKey : String → Bool) (specs : List String) :
    Result (List Holding) :=
  specs.mapM (parseHolding isValidEd25519PublicKey)

/-! ### What a specification names -/

/-- The holding that a specification names, white space around its parts aside. -/
inductive Names (isValidEd25519PublicKey : String → Bool) : List Char → Holding → Prop
  | native {tenant address : List Char} : '=' ∉ tenant → '|' ∉ address → trimmed tenant ≠ "" →
      isValidEd25519PublicKey (trimmed address) = true →
      Names isValidEd25519PublicKey (tenant ++ '=' :: address)
        ⟨trimmed tenant, trimmed address, "", ""⟩
  | asset {tenant address code issuer : List Char} : '=' ∉ tenant → '|' ∉ address → '|' ∉ code →
      '|' ∉ issuer → trimmed tenant ≠ "" → trimmed code ≠ "" → trimmed issuer ≠ "" →
      isValidEd25519PublicKey (trimmed issuer) = true →
      isValidEd25519PublicKey (trimmed address) = true →
      Names isValidEd25519PublicKey
        (tenant ++ '=' :: (address ++ '|' :: (code ++ '|' :: issuer)))
        ⟨trimmed tenant, trimmed address, trimmed code, trimmed issuer⟩

theorem cut_append {separator : Char} {before : List Char} (absent : separator ∉ before)
    (after : List Char) : cut separator (before ++ separator :: after) = some (before, after) := by
  have stays : ∀ c ∈ before, decide (c ≠ separator) = true := fun c mem =>
    decide_eq_true fun same => absent (same ▸ mem)
  have mem : separator ∈ before ++ separator :: after := by simp
  rw [cut, if_pos mem, List.takeWhile_append_of_pos stays, List.dropWhile_append_of_pos stays]
  simp

/-- `ParseHoldings` reads only specifications that name a holding. -/
theorem names_of_parseHolding {isValid : String → Bool} {spec : String} {h : Holding}
    (ok : parseHolding isValid spec = .ok h) : Names isValid spec.toList h := by
  rw [parseHolding] at ok
  generalize spec.toList = text at ok
  by_cases cut_here : '=' ∈ text
  case neg =>
    rw [cut, if_neg cut_here] at ok
    cases ok
  rcases List.eq_append_cons_of_mem cut_here with ⟨tenant, holding, rfl, tenant_plain⟩
  rw [cut_append tenant_plain] at ok
  dsimp only at ok
  split at ok
  · cases ok
  rename_i named
  by_cases first : '|' ∈ holding
  case neg =>
    rw [List.splitOn_eq_singleton first] at ok
    dsimp only at ok
    split at ok
    · rename_i valid
      cases ok
      exact .native tenant_plain first named valid
    · cases ok
  rcases List.eq_append_cons_of_mem first with ⟨address, rest, rfl, address_plain⟩
  rw [List.splitOn_append_cons_self_of_not_mem address_plain] at ok
  by_cases second : '|' ∈ rest
  case neg =>
    rw [List.splitOn_eq_singleton second] at ok
    cases ok
  rcases List.eq_append_cons_of_mem second with ⟨code, issuer, rfl, code_plain⟩
  rw [List.splitOn_append_cons_self_of_not_mem code_plain] at ok
  by_cases third : '|' ∈ issuer
  · -- four parts are none of the two forms
    rcases List.eq_append_cons_of_mem third with ⟨front, back, rfl, front_plain⟩
    rw [List.splitOn_append_cons_self_of_not_mem front_plain] at ok
    rcases parts : back.splitOn '|' with _ | ⟨part, others⟩
    · exact absurd parts (List.splitOn_ne_nil _ _)
    · rw [parts] at ok
      cases ok
  · rw [List.splitOn_eq_singleton third] at ok
    dsimp only at ok
    split at ok
    · cases ok
    rename_i full
    rw [not_or] at full
    split at ok
    · rename_i issued
      split at ok
      · rename_i valid
        cases ok
        exact .asset tenant_plain address_plain code_plain third named full.1 full.2 issued valid
      · cases ok
    · cases ok

/-- The holdings are those that the specifications name, one for each, in order. -/
theorem names_of_parseHoldings {isValid : String → Bool} {specs : List String}
    {holdings : List Holding} (parsed : parseHoldings isValid specs = .ok holdings) :
    List.Forall₂ (fun spec h => Names isValid spec.toList h) specs holdings := by
  induction specs generalizing holdings with
  | nil =>
      cases parsed
      exact .nil
  | cons spec specs ih =>
      rw [parseHoldings, List.mapM_cons] at parsed
      cases first : parseHolding isValid spec with
      | error err =>
          rw [first] at parsed
          cases parsed
      | ok h =>
          cases rest : specs.mapM (parseHolding isValid) with
          | error err =>
              rw [first, rest] at parsed
              cases parsed
          | ok others =>
              rw [first, rest] at parsed
              cases parsed
              exact .cons (names_of_parseHolding first) (ih rest)

/-- `Config`, times in nanoseconds. -/
structure Config where
  horizonURL : String
  holdings : List Holding
  maxAttempts : Int
  baseBackoff : Int

/-- `Adapter`. -/
structure Adapter where
  horizonURL : String
  holdings : List Holding
  maxAttempts : Nat
  baseBackoff : Nat
  maxAttempts_pos : 0 < maxAttempts

/-- `defaultMaxAttempts`. -/
def defaultMaxAttempts : Nat :=
  3

/-- `defaultBaseBackoff` in nanoseconds. -/
def defaultBaseBackoff : Nat :=
  200 * 1000000

/-- The attempts that `NewAdapter` sets. -/
def attempts (configured : Int) : Nat :=
  if configured ≤ 0 then defaultMaxAttempts else configured.toNat

theorem attempts_pos (configured : Int) : 0 < attempts configured := by
  unfold attempts
  split
  · decide
  · omega

/-- `NewAdapter`. -/
def newAdapter (c : Config) : Result Adapter :=
  if trimmed c.horizonURL.toList = "" then .error (.plain "onchain: horizon url is required")
  else if c.holdings = [] then .error (.plain "onchain: no holdings configured")
  else
    .ok {
      horizonURL := String.ofList (c.horizonURL.toList.reverse.dropWhile (· = '/')).reverse
      holdings := c.holdings
      maxAttempts := attempts c.maxAttempts
      baseBackoff := if c.baseBackoff ≤ 0 then defaultBaseBackoff else c.baseBackoff.toNat
      maxAttempts_pos := attempts_pos c.maxAttempts }

/-- `holdingsFor`. -/
def Adapter.holdingsFor (a : Adapter) (tenantID : String) : List Holding :=
  a.holdings.filter fun h => h.tenant = tenantID

/-- `HasTenant`. -/
def Adapter.hasTenant (a : Adapter) (tenantID : String) : Bool :=
  0 < (a.holdingsFor tenantID).length

/-! ## Balances -/

/-- `horizonBalance`; a missing field is the empty text. -/
structure HorizonBalance where
  balance : String
  assetType : String
  assetCode : String
  assetIssuer : String
  deriving DecidableEq

/-- `horizonAccount`. -/
structure HorizonAccount where
  balances : List HorizonBalance
  deriving DecidableEq

/-- The line that the loop of `selectBalance` returns from. -/
def Holding.selects (h : Holding) (b : HorizonBalance) : Bool :=
  if h.code = "" then b.assetType = "native"
  else "credit_alphanum".toList <+: b.assetType.toList ∧ b.assetCode = h.code ∧
    b.assetIssuer = h.issuer

/-- `selectBalance`. -/
def selectBalance (acct : HorizonAccount) (h : Holding) : Result (String × String) :=
  match acct.balances.find? h.selects with
  | some b => .ok (b.balance, if h.code = "" then "XLM" else h.code)
  | none =>
      if h.code = "" then .error (.plain ("account " ++ h.address ++ " has no native balance"))
      else
        .error (.plain ("account " ++ h.address ++ " does not hold " ++ h.code ++ " issued by " ++
          h.issuer))

/-- The figure of a holding on its account. -/
def figure (acct : HorizonAccount) (h : Holding) : Result Reserve :=
  match selectBalance acct h with
  | .error err => .error err
  | .ok (balance, currency) =>
      match toStroops balance with
      | .error err => .error (.wrap ("balance " ++ quote balance) err)
      | .ok stroops =>
          .ok ⟨if h.code = "" then h.address else h.address ++ ":" ++ h.code, stroops, currency⟩

/-- What `fetchBalance` makes of a reply. -/
def checkAccount (h : Holding) : HttpReply HorizonAccount → Result Reserve
  | .unbuilt text => .error (.wrap "build account request" (.plain text))
  | .unreachable text => .error (.transient (.wrap "fetch account" (.plain text)))
  | .answered status body =>
      if 500 ≤ status then
        .error (.transient (.plain ("account request status " ++ toString status)))
      else if status ≠ 200 then .error (.plain ("account request status " ++ toString status))
      else
        match body with
        | .error text => .error (.wrap "decode account" (.plain text))
        | .ok acct => figure acct h

/-! ## Fetching -/

/-- What the goroutines of a call meet: the reply to each request of each of them, and
the context's error where it is done during a wait. -/
structure Horizon where
  account (goroutine attempt : Nat) (endpoint : String) : HttpReply HorizonAccount
  waited (goroutine attempt delay : Nat) : Option GoError

section Fetch

variable (a : Adapter) (horizon : Horizon)

/-- The URL of an account. -/
def endpoint (address : String) : String :=
  a.horizonURL ++ "/accounts/" ++ address

/-- The loop of `fetchWithRetry`, from the attempts that are left. -/
def fetchFrom (goroutine : Nat) (h : Holding) : Nat → Nat → Nat → Result Reserve
  | 0, _, _ => .error (.plain "after 0 attempts: %!w(<nil>)")
  | left + 1, attempt, backoff =>
      match checkAccount h (horizon.account goroutine attempt (endpoint a h.address)) with
      | .ok reserve => .ok reserve
      | .error err =>
          if ¬ err.isTransient then .error err
          else if left = 0 then
            .error (.wrap ("after " ++ toString a.maxAttempts ++ " attempts") err)
          else
            match horizon.waited goroutine attempt backoff with
            | some err => .error err
            | none => fetchFrom goroutine h left (attempt + 1) (backoff * 2)

/-- `fetchWithRetry`. -/
def fetchWithRetry (goroutine : Nat) (h : Holding) : Result Reserve :=
  fetchFrom a horizon goroutine h a.maxAttempts 1 a.baseBackoff

/-- `FetchSigned`: the outcomes it may have. Each goroutine writes a slot of its own, and
the group returns the error of whichever fails first. -/
inductive FetchSigned (tenantID : String) : Result ReserveSnapshot → Prop
  | unconfigured : a.holdingsFor tenantID = [] →
      FetchSigned tenantID (.error (.plain ("onchain: no holdings for tenant " ++ tenantID)))
  | failed {goroutine : Nat} {h : Holding} {err : GoError} :
      (a.holdingsFor tenantID)[goroutine]? = some h →
      fetchWithRetry a horizon goroutine h = .error err →
      FetchSigned tenantID (.error (.wrap ("holding " ++ h.address) err))
  | joined {reserves : List Reserve} {capturedAt : String} : a.holdingsFor tenantID ≠ [] →
      (a.holdingsFor tenantID).mapIdx (fetchWithRetry a horizon) = reserves.map .ok →
      FetchSigned tenantID (.ok ⟨tenantID, reserves, capturedAt⟩)

end Fetch

end Solva.Orchestrator.OnChain
