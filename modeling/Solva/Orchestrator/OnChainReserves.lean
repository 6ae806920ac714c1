import Solva.Orchestrator.OnChain

/-!
# Which balances an on-chain snapshot counts

Each figure is the balance of the holding's asset in an answer about the holding's
account. The parser takes a holding twice, and for two tenants, so the balances are
distinct exactly when the configuration says so.
-/

namespace Solva.Orchestrator.OnChain

open Codec
open Attested (HttpReply)

/-! ## Balances by account and asset -/

inductive Asset where
  | native
  | issued (code issuer : String)
  deriving DecidableEq

/-- What a holding names on its account. -/
def Holding.asset (h : Holding) : Asset :=
  if h.code = "" then .native else .issued h.code h.issuer

/-- The account and the asset of a holding. -/
def Holding.source (h : Holding) : String × Asset :=
  (h.address, h.asset)

/-- What a line of an account is a balance of. -/
def HorizonBalance.asset? (b : HorizonBalance) : Option Asset :=
  if b.assetType = "native" then some .native
  else if "credit_alphanum".toList <+: b.assetType.toList then
    some (.issued b.assetCode b.assetIssuer)
  else none

/-- A figure that is the balance of the holding's asset in an answer about the holding's
account. -/
structure IsBalance (a : Adapter) (horizon : Horizon) (h : Holding) (reserve : Reserve) : Prop where
  answered : ∃ goroutine attempt acct b,
    horizon.account goroutine attempt (endpoint a h.address) = .answered 200 (.ok acct) ∧
      b ∈ acct.balances ∧ b.asset? = some h.asset ∧ toStroops b.balance = .ok reserve.balance

/-- A snapshot with one figure for each holding of the tenant, in order, of distinct
balances that no other tenant counts. -/
structure CountsOnce (a : Adapter) (horizon : Horizon) (tenantID : String)
    (snapshot : ReserveSnapshot) : Prop where
  figures : List.Forall₂ (IsBalance a horizon) (a.holdingsFor tenantID) snapshot.reserves
  distinct : ((a.holdingsFor tenantID).map Holding.source).Nodup
  own : ∀ h ∈ a.holdingsFor tenantID, ∀ other ∈ a.holdings, other.source = h.source →
    other.tenant = tenantID

theorem mem_holdingsFor {a : Adapter} {tenantID : String} {h : Holding} :
    h ∈ a.holdingsFor tenantID ↔ h ∈ a.holdings ∧ h.tenant = tenantID := by
  rw [Adapter.holdingsFor, List.mem_filter, decide_eq_true_eq]

/-- A selected line is a balance of the holding's asset. -/
theorem asset_of_selects {h : Holding} {b : HorizonBalance} (selected : h.selects b) :
    b.asset? = some h.asset := by
  unfold Holding.selects at selected
  unfold HorizonBalance.asset? Holding.asset
  by_cases native : h.code = ""
  · rw [if_pos native, decide_eq_true_eq] at selected
    rw [if_pos native, if_pos selected]
  · rw [if_neg native, decide_eq_true_eq] at selected
    rcases selected with ⟨credit, code, issuer⟩
    have other : b.assetType ≠ "native" := by
      intro equal
      rw [equal] at credit
      exact absurd credit (by decide)
    rw [if_neg native, if_neg other, if_pos credit, code, issuer]

/-- A figure is read off a selected line. -/
theorem figure_eq_ok {acct : HorizonAccount} {h : Holding} {reserve : Reserve}
    (ok : figure acct h = .ok reserve) :
    ∃ b ∈ acct.balances, b.asset? = some h.asset ∧ toStroops b.balance = .ok reserve.balance := by
  rw [figure, selectBalance] at ok
  cases found : acct.balances.find? h.selects with
  | none =>
      rw [found] at ok
      by_cases native : h.code = ""
      · simp only [if_pos native] at ok
        cases ok
      · simp only [if_neg native] at ok
        cases ok
  | some b =>
      rw [found] at ok
      dsimp only at ok
      cases read : toStroops b.balance with
      | error err =>
          rw [read] at ok
          cases ok
      | ok stroops =>
          rw [read] at ok
          cases ok
          exact ⟨b, List.mem_of_find?_eq_some found, asset_of_selects (List.find?_some found), read⟩

theorem checkAccount_eq_ok {h : Holding} {reply : HttpReply HorizonAccount} {reserve : Reserve}
    (ok : checkAccount h reply = .ok reserve) :
    ∃ acct, reply = .answered 200 (.ok acct) ∧ figure acct h = .ok reserve := by
  cases reply with
  | unbuilt text => cases ok
  | unreachable text => cases ok
  | answered status body =>
      simp only [checkAccount] at ok
      split_ifs at ok with failed refused
      have status_eq : status = 200 := not_not.mp refused
      cases body with
      | error text => cases ok
      | ok acct =>
          rw [status_eq]
          exact ⟨acct, rfl, ok⟩

section Fetch

variable {a : Adapter} {horizon : Horizon}

/-- The loop returns what one of its requests was answered with. -/
theorem fetchFrom_eq_ok {goroutine left attempt backoff : Nat} {h : Holding} {reserve : Reserve}
    (ok : fetchFrom a horizon goroutine h left attempt backoff = .ok reserve) :
    ∃ attempt, checkAccount h (horizon.account goroutine attempt (endpoint a h.address)) =
      .ok reserve := by
  induction left generalizing attempt backoff with
  | zero => cases ok
  | succ left ih =>
      rw [fetchFrom] at ok
      cases checked : checkAccount h
          (horizon.account goroutine attempt (endpoint a h.address)) with
      | ok found =>
          rw [checked] at ok
          cases ok
          exact ⟨attempt, checked⟩
      | error err =>
          rw [checked] at ok
          dsimp only at ok
          split_ifs at ok
          cases waited : horizon.waited goroutine attempt backoff with
          | some err =>
              rw [waited] at ok
              cases ok
          | none =>
              rw [waited] at ok
              exact ih ok

theorem isBalance_of_fetchWithRetry {goroutine : Nat} {h : Holding} {reserve : Reserve}
    (ok : fetchWithRetry a horizon goroutine h = .ok reserve) : IsBalance a horizon h reserve := by
  rcases fetchFrom_eq_ok ok with ⟨attempt, checked⟩
  rcases checkAccount_eq_ok checked with ⟨acct, answered, figured⟩
  rcases figure_eq_ok figured with ⟨b, mem, asset, read⟩
  exact ⟨goroutine, attempt, acct, b, answered, mem, asset, read⟩

end Fetch

/-! ## Slots -/

section Slots

variable {α β ε : Type}

/-- Slots that all hold a value hold one for each item, in order. -/
theorem forall₂_of_mapIdx {holds : α → β → Prop} {items : List α} {values : List β}
    {slot : Nat → α → Except ε β}
    (sound : ∀ i item value, slot i item = .ok value → holds item value)
    (filled : items.mapIdx slot = values.map .ok) : List.Forall₂ holds items values := by
  induction items generalizing slot values with
  | nil =>
      rw [List.mapIdx_nil] at filled
      rw [List.map_eq_nil_iff.mp filled.symm]
      exact List.Forall₂.nil
  | cons item items ih =>
      rw [List.mapIdx_cons] at filled
      cases values with
      | nil => cases filled
      | cons value values =>
          rcases List.cons.inj filled with ⟨first, rest⟩
          exact List.Forall₂.cons (sound 0 item value first)
            (ih (fun i item value => sound (i + 1) item value) rest)

/-- Items that all have a value fill their slots. -/
theorem exists_mapIdx_eq {items : List α} {slot : Nat → α → Except ε β}
    (total : ∀ i, ∀ item ∈ items, ∃ value, slot i item = .ok value) :
    ∃ values : List β, items.mapIdx slot = values.map .ok := by
  induction items generalizing slot with
  | nil => exact ⟨[], rfl⟩
  | cons item items ih =>
      rcases total 0 item List.mem_cons_self with ⟨value, first⟩
      have later : ∀ i, ∀ other ∈ items, ∃ value, slot (i + 1) other = .ok value :=
        fun i other mem => total (i + 1) other (List.mem_cons_of_mem item mem)
      rcases ih later with ⟨values, rest⟩
      refine ⟨value :: values, ?_⟩
      rw [List.mapIdx_cons, rest, first]
      rfl

end Slots

/-! ## A ledger that holds everything -/

/-- An account with a balance of every asset of some holdings. -/
def fullAccount (holdings : List Holding) : HorizonAccount where
  balances := ⟨"1", "native", "", ""⟩ ::
    holdings.map fun h => ⟨"1", "credit_alphanum4", h.code, h.issuer⟩

def fullHorizon (holdings : List Holding) : Horizon where
  account _ _ _ := .answered 200 (.ok (fullAccount holdings))
  waited _ _ _ := none

theorem exists_figure {holdings : List Holding} {h : Holding} (mem : h ∈ holdings) :
    ∃ reserve, figure (fullAccount holdings) h = .ok reserve := by
  have some_line : ∃ b ∈ (fullAccount holdings).balances, h.selects b := by
    by_cases native : h.code = ""
    · refine ⟨⟨"1", "native", "", ""⟩, List.mem_cons_self, ?_⟩
      rw [Holding.selects, if_pos native]
      rfl
    · have credit : "credit_alphanum".toList <+: "credit_alphanum4".toList := by decide
      refine ⟨⟨"1", "credit_alphanum4", h.code, h.issuer⟩,
        List.mem_cons_of_mem _ (List.mem_map_of_mem mem), ?_⟩
      rw [Holding.selects, if_neg native, decide_eq_true_eq]
      exact ⟨credit, rfl, rfl⟩
  have all_one : ∀ b ∈ (fullAccount holdings).balances, b.balance = "1" := by
    intro b mem
    rcases List.mem_cons.mp mem with rfl | mem
    · rfl
    · rcases List.mem_map.mp mem with ⟨_, _, rfl⟩
      rfl
  have read : toStroops "1" = .ok "10000000" := by decide +kernel
  rw [figure, selectBalance]
  cases found : (fullAccount holdings).balances.find? h.selects with
  | none =>
      rcases some_line with ⟨b, mem, selected⟩
      exact absurd selected (List.find?_eq_none.mp found b mem)
  | some b =>
      dsimp only
      rw [all_one b (List.mem_of_find?_eq_some found), read]
      exact ⟨_, rfl⟩

/-- The first request of every holding is answered with its figure. -/
theorem exists_fetchWithRetry {a : Adapter} {h : Holding} (mem : h ∈ a.holdings)
    (goroutine : Nat) :
    ∃ reserve, fetchWithRetry a (fullHorizon a.holdings) goroutine h = .ok reserve := by
  rcases exists_figure mem with ⟨reserve, figured⟩
  refine ⟨reserve, ?_⟩
  rcases Nat.exists_eq_succ_of_ne_zero (Nat.ne_of_gt a.maxAttempts_pos) with ⟨left, attempts⟩
  have checked : checkAccount h
      ((fullHorizon a.holdings).account goroutine 1 (endpoint a h.address)) = .ok reserve :=
    figured
  rw [fetchWithRetry, attempts, fetchFrom, checked]

/-- Every tenant with holdings gets a snapshot. -/
theorem exists_snapshot {a : Adapter} {tenantID : String}
    (configured : a.holdingsFor tenantID ≠ []) :
    ∃ snapshot, FetchSigned a (fullHorizon a.holdings) tenantID (.ok snapshot) := by
  have total : ∀ i, ∀ h ∈ a.holdingsFor tenantID,
      ∃ reserve, fetchWithRetry a (fullHorizon a.holdings) i h = .ok reserve :=
    fun i h mem => exists_fetchWithRetry (mem_holdingsFor.mp mem).1 i
  rcases exists_mapIdx_eq total with ⟨reserves, filled⟩
  exact ⟨⟨tenantID, reserves, ""⟩, .joined configured filled⟩

/-! ## Every configuration -/

/-- The figures of a snapshot are balances of the tenant's holdings, in order. -/
theorem figures_of_fetchSigned {a : Adapter} {horizon : Horizon} {tenantID : String}
    {snapshot : ReserveSnapshot} (fetched : FetchSigned a horizon tenantID (.ok snapshot)) :
    List.Forall₂ (IsBalance a horizon) (a.holdingsFor tenantID) snapshot.reserves := by
  cases fetched with
  | joined _ filled =>
      exact forall₂_of_mapIdx (fun _ _ _ ok => isBalance_of_fetchWithRetry ok) filled

theorem holdings_of_newAdapter {c : Config} {a : Adapter} (accepted : newAdapter c = .ok a) :
    a.holdings = c.holdings := by
  rw [newAdapter] at accepted
  by_cases unnamed : trimmed c.horizonURL.toList = ""
  · rw [if_pos unnamed] at accepted
    cases accepted
  rw [if_neg unnamed] at accepted
  by_cases empty : c.holdings = []
  · rw [if_pos empty] at accepted
    cases accepted
  rw [if_neg empty] at accepted
  cases accepted
  rfl

/-- A configuration with a URL and holdings is accepted. -/
theorem exists_newAdapter {c : Config} (named : trimmed c.horizonURL.toList ≠ "")
    (configured : c.holdings ≠ []) : ∃ a, newAdapter c = .ok a := by
  rw [newAdapter, if_neg named, if_neg configured]
  exact ⟨_, rfl⟩

/-- The holdings are those that the specifications name, and snapshots count every
balance once exactly when no account and asset is named twice, for one tenant or for
two. -/
theorem countsOnce_iff {isValid : String → Bool} {specs : List String} {c : Config} {a : Adapter}
    (parsed : parseHoldings isValid specs = .ok c.holdings) (accepted : newAdapter c = .ok a) :
    List.Forall₂ (fun spec h => Names isValid spec.toList h) specs c.holdings ∧
      ((∀ horizon tenantID snapshot, FetchSigned a horizon tenantID (.ok snapshot) →
        CountsOnce a horizon tenantID snapshot) ↔ (c.holdings.map Holding.source).Nodup) := by
  refine ⟨names_of_parseHoldings parsed, ?_⟩
  rw [← holdings_of_newAdapter accepted]
  constructor
  · intro once
    apply List.nodup_iff_sublist.mpr
    intro source twice
    rcases List.sublist_map_iff.mp twice with ⟨pair, pair_sublist, pair_eq⟩
    rcases List.map_eq_cons_iff.mp pair_eq.symm with ⟨first, rest, rfl, first_eq, rest_eq⟩
    rcases List.map_eq_singleton_iff.mp rest_eq with ⟨second, rfl, second_eq⟩
    have first_mem : first ∈ a.holdings := pair_sublist.subset List.mem_cons_self
    have second_mem : second ∈ a.holdings :=
      pair_sublist.subset (List.mem_cons_of_mem _ (List.mem_singleton_self _))
    have first_for : first ∈ a.holdingsFor first.tenant := mem_holdingsFor.mpr ⟨first_mem, rfl⟩
    rcases exists_snapshot (List.ne_nil_of_mem first_for) with ⟨snapshot, fetched⟩
    have counts := once _ _ _ fetched
    have same_tenant : second.tenant = first.tenant :=
      counts.own first first_for second second_mem (second_eq.trans first_eq.symm)
    have both : [first, second].Sublist (a.holdingsFor first.tenant) := by
      have kept := pair_sublist.filter fun h => decide (h.tenant = first.tenant)
      simp only [same_tenant, List.filter_cons, List.filter_nil, decide_true, if_true] at kept
      exact kept
    have again := (both.map Holding.source).nodup counts.distinct
    rw [List.map_cons, List.map_cons, first_eq, second_eq] at again
    simp at again
  · intro distinct horizon tenantID snapshot fetched
    constructor
    · exact figures_of_fetchSigned fetched
    · exact (List.filter_sublist.map Holding.source).nodup distinct
    · intro h mem other other_mem same
      have equal : other = h :=
        List.inj_on_of_nodup_map distinct other_mem (mem_holdingsFor.mp mem).1 same
      rw [equal]
      exact (mem_holdingsFor.mp mem).2

/-! ## Two tenants, one account -/

/-- An account of the ledger. -/
def account : String :=
  "GA7QYNF7SOWQ3GLR2BGMZEHXAVIRZA4KVWLTJJFC7MGXUA74P7UJVSGZ"

def issuer : String :=
  "GBBD47IF6LWK7P7MDEVSCWR7DPUWV3NY3DTQEVFL4NAT4AQH3ZLLFLA5"

def isAccount (text : String) : Bool :=
  text = account ∨ text = issuer

def sampleConfig (holdings : List Holding) : Config :=
  ⟨"https://horizon.test", holdings, 0, 0⟩

theorem countsOnce_iff_sample :
    ∃ holdings a, parseHoldings isAccount ["harbor=" ++ account,
        "other=" ++ account ++ "|USDC|" ++ issuer] = .ok holdings ∧
      newAdapter (sampleConfig holdings) = .ok a ∧
      ∀ horizon tenantID snapshot, FetchSigned a horizon tenantID (.ok snapshot) →
        CountsOnce a horizon tenantID snapshot := by
  have parsed : parseHoldings isAccount ["harbor=" ++ account,
      "other=" ++ account ++ "|USDC|" ++ issuer] =
        .ok [⟨"harbor", account, "", ""⟩, ⟨"other", account, "USDC", issuer⟩] := by
    decide +kernel
  rcases exists_newAdapter (c := sampleConfig
    [⟨"harbor", account, "", ""⟩, ⟨"other", account, "USDC", issuer⟩])
    (by decide +kernel) (by decide) with ⟨a, accepted⟩
  exact ⟨_, a, parsed, accepted, (countsOnce_iff parsed accepted).2.mpr (by decide +kernel)⟩

/-- A holding that is listed twice is parsed twice and counted twice. -/
theorem parseHoldings_twice :
    ∃ holdings a, parseHoldings isAccount ["harbor=" ++ account, "harbor=" ++ account] =
        .ok holdings ∧
      newAdapter (sampleConfig holdings) = .ok a ∧
      ∃ horizon snapshot, FetchSigned a horizon "harbor" (.ok snapshot) ∧
        ¬ CountsOnce a horizon "harbor" snapshot := by
  have parsed : parseHoldings isAccount ["harbor=" ++ account, "harbor=" ++ account] =
      .ok [⟨"harbor", account, "", ""⟩, ⟨"harbor", account, "", ""⟩] := by
    decide +kernel
  rcases exists_newAdapter (c := sampleConfig
    [⟨"harbor", account, "", ""⟩, ⟨"harbor", account, "", ""⟩])
    (by decide +kernel) (by decide) with ⟨a, accepted⟩
  have tenant_holdings : a.holdingsFor "harbor" =
      [⟨"harbor", account, "", ""⟩, ⟨"harbor", account, "", ""⟩] := by
    rw [Adapter.holdingsFor, holdings_of_newAdapter accepted]
    rfl
  have configured : a.holdingsFor "harbor" ≠ [] := by
    rw [tenant_holdings]
    exact List.cons_ne_nil _ _
  rcases exists_snapshot configured with ⟨snapshot, fetched⟩
  refine ⟨_, a, parsed, accepted, _, snapshot, fetched, fun counts => ?_⟩
  have distinct := counts.distinct
  rw [tenant_holdings] at distinct
  exact absurd distinct (by decide)

end Solva.Orchestrator.OnChain
