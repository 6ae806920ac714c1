import Mathlib.Data.List.Induction

/-!
# Challenges from a chain of hashes

A verifier that draws its challenges from a hash keeps the last digest as its state. Each
message is hashed behind the state before it, so a state stands for all messages up to it
as long as the hash does not collide.
-/

namespace Solva.FiatShamir

variable {α State : Type*} (hash : List α → State) (embed : State → List α)

/-- The state after one more message. -/
def next (state : State) (message : List α) : State :=
  hash (embed state ++ message)

/-- The state after a run of messages. -/
def last (state : State) (messages : List (List α)) : State :=
  messages.foldl (next hash embed) state

/-- The states after each message of a run. -/
def states : State → List (List α) → List State
  | _, [] => []
  | state, message :: messages =>
      next hash embed state message :: states (next hash embed state message) messages

/-- What is hashed on the way. -/
def queries : State → List (List α) → List (List α)
  | _, [] => []
  | state, message :: messages =>
      (embed state ++ message) :: queries (next hash embed state message) messages

variable {hash embed}

@[simp]
theorem last_nil (state : State) : last hash embed state [] = state :=
  rfl

theorem last_cons (state : State) (message : List α) (messages : List (List α)) :
    last hash embed state (message :: messages) =
      last hash embed (next hash embed state message) messages :=
  rfl

theorem last_append (state : State) (before after : List (List α)) :
    last hash embed state (before ++ after) =
      last hash embed (last hash embed state before) after :=
  List.foldl_append

theorem queries_append (state : State) (before after : List (List α)) :
    queries hash embed state (before ++ after) = queries hash embed state before ++
      queries hash embed (last hash embed state before) after := by
  induction before generalizing state with
  | nil => rfl
  | cons message before ih => rw [List.cons_append, queries, ih, queries, last_cons]; rfl

@[simp]
theorem length_states (state : State) (messages : List (List α)) :
    (states hash embed state messages).length = messages.length := by
  induction messages generalizing state with
  | nil => rfl
  | cons message messages ih => rw [states, List.length_cons, ih, List.length_cons]

/-- A state in the run is the last one of the messages up to it. -/
theorem getD_states {state default : State} {messages : List (List α)} {i : Nat}
    (used : i < messages.length) :
    (states hash embed state messages).getD i default =
      last hash embed state (messages.take (i + 1)) := by
  induction messages generalizing state i with
  | nil => exact absurd used (Nat.not_lt_zero i)
  | cons message messages ih =>
      rw [states, List.take_succ_cons, last_cons]
      cases i with
      | zero => rw [List.getD_cons_zero, List.take_zero, last_nil]
      | succ i =>
          rw [List.getD_cons_succ]
          exact ih (Nat.lt_of_succ_lt_succ used)

theorem getLastD_states (state : State) (messages : List (List α)) :
    (states hash embed state messages).getLastD state = last hash embed state messages := by
  induction messages generalizing state with
  | nil => rfl
  | cons message messages ih => rw [states, List.getLastD_cons, ih, last_cons]

/-! ## The last state stands for all messages -/

/-- Two runs of as many messages that end alike are the same run, or two of their queries
collide. It is enough to see a part of the last state. -/
theorem eq_or_collision {width : Nat} {β : Type*} (view : State → β)
    (widths : ∀ state, (embed state).length = width) (embed_inj : Function.Injective embed)
    {first first' : List α} {messages messages' : List (List α)}
    (count : messages.length = messages'.length)
    (same : view (last hash embed (hash first) messages) =
      view (last hash embed (hash first') messages')) :
    (first = first' ∧ messages = messages') ∨
      ∃ query ∈ first :: queries hash embed (hash first) messages,
        ∃ query' ∈ first' :: queries hash embed (hash first') messages',
          query ≠ query' ∧ view (hash query) = view (hash query') := by
  induction messages using List.reverseRecOn generalizing messages' with
  | nil =>
      have none : messages' = [] := List.eq_nil_of_length_eq_zero count.symm
      subst none
      by_cases equal : first = first'
      · exact Or.inl ⟨equal, rfl⟩
      · exact Or.inr ⟨first, List.mem_cons_self, first', List.mem_cons_self, equal, same⟩
  | append_singleton before message ih =>
      rcases List.eq_nil_or_concat messages' with none | ⟨before', message', rfl⟩
      · rw [none, List.length_append, List.length_singleton] at count
        exact absurd count (Nat.succ_ne_zero _)
      · rw [List.concat_eq_append] at count same ⊢
        rw [List.length_append, List.length_append, List.length_singleton, List.length_singleton,
          Nat.add_right_cancel_iff] at count
        rw [last_append, last_append, last_cons, last_cons, last_nil, last_nil] at same
        rw [queries_append, queries_append, queries, queries, queries, queries]
        by_cases equal : embed (last hash embed (hash first) before) ++ message =
            embed (last hash embed (hash first') before') ++ message'
        · rcases List.append_inj equal ((widths _).trans (widths _).symm) with ⟨state, rfl⟩
          rcases ih count (congrArg view (embed_inj state)) with ⟨rfl, rfl⟩ | collision
          · exact Or.inl ⟨rfl, rfl⟩
          · right
            rcases collision with ⟨query, mem, query', mem', apart, collide⟩
            refine ⟨query, ?_, query', ?_, apart, collide⟩
            · exact List.mem_append_left _ mem
            · exact List.mem_append_left _ mem'
        · right
          refine ⟨_, ?_, _, ?_, equal, same⟩
          · exact List.mem_append_right (first :: queries hash embed (hash first) before)
              (List.mem_singleton_self _)
          · exact List.mem_append_right (first' :: queries hash embed (hash first') before')
              (List.mem_singleton_self _)

end Solva.FiatShamir
