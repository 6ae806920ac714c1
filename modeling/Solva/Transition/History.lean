import Solva.Transition.Protocol

/-!
# What a program has called

A program is answered call by call, by anyone. The protocol of histories stands at
the list of the calls made so far, so that a call can be judged by what came before
it; the rules below carry what is known of the history through a program with errors.
-/

namespace Solva.Transition

universe u v

variable {Call : Type u} {Reply : Call → Type v} {ε α β : Type}

/-- A program makes calls, is answered, and stands at what is left of it. -/
inductive Performs (program : Program Call Reply α) :
    List (Performed Call Reply) → Program Call Reply α → Prop
  | nil : Performs program [] program
  | snoc {made : List (Performed Call Reply)} {c : Call}
      {resume : Reply c → Program Call Reply α} (reply : Reply c) :
      Performs program made (.call c resume) → Performs program (made ++ [⟨c, reply⟩])
        (resume reply)

/-- The calls of a program that is answered by a function of the calls. -/
def Program.transcript (answer : (c : Call) → Reply c) :
    Program Call Reply α → List (Performed Call Reply)
  | .ret _ => []
  | .call c resume => ⟨c, answer c⟩ :: (resume (answer c)).transcript answer

theorem Performs.cons {c : Call} {resume : Reply c → Program Call Reply α} (reply : Reply c)
    {made : List (Performed Call Reply)} {rest : Program Call Reply α}
    (performs : Performs (resume reply) made rest) :
    Performs (.call c resume) (⟨c, reply⟩ :: made) rest := by
  induction performs with
  | nil => exact .snoc reply .nil
  | snoc later _ ih => exact .snoc later ih

/-- A program that has returned calls nothing. -/
theorem Performs.eq_nil {value : α} {made : List (Performed Call Reply)}
    {rest : Program Call Reply α} (performs : Performs (.ret value) made rest) :
    made = [] ∧ rest = .ret value := by
  induction performs with
  | nil => exact ⟨rfl, rfl⟩
  | snoc _ _ ih => cases ih.2

theorem exists_performs_transcript (answer : (c : Call) → Reply c)
    (program : Program Call Reply α) :
    ∃ rest, Performs program (program.transcript answer) rest := by
  induction program with
  | ret value => exact ⟨_, .nil⟩
  | call c resume ih =>
      rcases ih (answer c) with ⟨rest, performs⟩
      exact ⟨rest, performs.cons (answer c)⟩

namespace Protocol

/-- The protocol that stands at the calls made so far. -/
def history (allowed : List (Performed Call Reply) → Call → Prop) :
    Protocol Call Reply (List (Performed Call Reply)) where
  allowed := allowed
  next made c reply := made ++ [⟨c, reply⟩]

variable {allowed : List (Performed Call Reply) → Call → Prop}
  {returns : List (Performed Call Reply) → α → Prop} {program rest : Program Call Reply α}
  {made : List (Performed Call Reply)}

theorem Follows.of_performs (follows : (history allowed).Follows returns [] program)
    (performs : Performs program made rest) : (history allowed).Follows returns made rest := by
  induction performs with
  | nil => exact follows
  | snoc reply _ ih => exact ih.2 reply

/-- Every call that was made was allowed where it was made. -/
theorem Follows.allowed_of_performs (follows : (history allowed).Follows returns [] program)
    (performs : Performs program made rest) {earlier later : List (Performed Call Reply)}
    {performed : Performed Call Reply} (split : made = earlier ++ performed :: later) :
    allowed earlier performed.call := by
  induction performs generalizing later with
  | nil => simp at split
  | @snoc made c resume reply before ih =>
      rcases List.eq_nil_or_concat later with rfl | ⟨later, last, rfl⟩
      · rcases List.append_inj' split rfl with ⟨rfl, last_eq⟩
        cases last_eq
        exact (follows.of_performs before).1
      · rw [List.concat_eq_append, ← List.cons_append, ← List.append_assoc] at split
        exact ih (List.append_inj' split rfl).1

end Protocol

/-! ## Rules -/

/-- Made from a history on, a part makes only allowed calls, and a value it returns
meets a condition together with the calls made by then. -/
def Ensures (allowed : List (Performed Call Reply) → Call → Prop)
    (made : List (Performed Call Reply)) (part : ExceptT ε (Program Call Reply) α)
    (post : List (Performed Call Reply) → α → Prop) : Prop :=
  (Protocol.history allowed).Follows
    (fun later result => made ⊆ later ∧ ∀ value, result = .ok value → post later value)
    made part.run

namespace Ensures

variable {allowed : List (Performed Call Reply) → Call → Prop} {made : List (Performed Call Reply)}
  {post : List (Performed Call Reply) → α → Prop} {post' : List (Performed Call Reply) → β → Prop}

/-- What the first part ensures is known to the second. -/
theorem bind {part : ExceptT ε (Program Call Reply) α} {next : α → ExceptT ε (Program Call Reply) β}
    (middle : List (Performed Call Reply) → α → Prop) (first : Ensures allowed made part middle)
    (second : ∀ later value, made ⊆ later → middle later value →
      Ensures allowed later (next value) post') :
    Ensures allowed made (part >>= next) post' := by
  apply Protocol.Follows.except_bind first
  · rintro later err ⟨grown, _⟩
    exact ⟨grown, fun value equal => nomatch equal⟩
  · rintro later value ⟨grown, holds⟩
    apply (second later value grown (holds value rfl)).mono
    rintro last result ⟨further, meets⟩
    exact ⟨List.Subset.trans grown further, meets⟩

/-- A step that calls nothing. -/
theorem of_result {result : Except ε α} (holds : ∀ value, result = .ok value → post made value) :
    Ensures allowed made (ExceptT.mk (pure result) : ExceptT ε (Program Call Reply) α) post :=
  ⟨List.Subset.refl made, holds⟩

theorem pure {value : α} (holds : post made value) :
    Ensures allowed made (Pure.pure value : ExceptT ε (Program Call Reply) α) post := by
  refine ⟨List.Subset.refl made, ?_⟩
  rintro _ ⟨⟩
  exact holds

theorem throw (err : ε) :
    Ensures allowed made (MonadExcept.throw err : ExceptT ε (Program Call Reply) α) post :=
  ⟨List.Subset.refl made, fun _ equal => nomatch equal⟩

/-- One call, whose reply is read as a result. -/
theorem call {c : Call} {read : Reply c → Except ε α} (admitted : allowed made c)
    (holds : ∀ reply value, read reply = .ok value → post (made ++ [⟨c, reply⟩]) value) :
    Ensures allowed made
      (ExceptT.mk (Program.call c fun reply => .ret (read reply)) :
        ExceptT ε (Program Call Reply) α)
      post :=
  ⟨admitted, fun reply => ⟨List.subset_append_left made _, holds reply⟩⟩

/-- Errors may be rewritten on the way out. -/
theorem mapError {part : ExceptT ε (Program Call Reply) α} (f : ε → ε)
    (ensures : Ensures allowed made part post) :
    Ensures allowed made
      (ExceptT.mk (part.run >>= fun result => Pure.pure (result.mapError f)) :
        ExceptT ε (Program Call Reply) α) post := by
  apply Protocol.Follows.bind ensures
  rintro later result ⟨grown, holds⟩
  refine ⟨grown, fun value equal => ?_⟩
  cases result with
  | error err => cases equal
  | ok found => exact holds value equal

theorem weaken {part : ExceptT ε (Program Call Reply) α}
    {weaker : List (Performed Call Reply) → α → Prop} (ensures : Ensures allowed made part post)
    (weaken : ∀ later value, made ⊆ later → post later value → weaker later value) :
    Ensures allowed made part weaker := by
  apply Protocol.Follows.mono ensures
  rintro later result ⟨grown, holds⟩
  exact ⟨grown, fun value equal => weaken later value grown (holds value equal)⟩

end Ensures

end Solva.Transition
