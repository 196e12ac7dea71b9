import RRPG.Client.Handlers

/-!
# Primitive steps of the client, evaluated

What a part of the client's program does from a state: the value it returns or the fault it
stops with, the state it leaves and its acts. Such facts compose along the program.
-/

open RRPG.Base RRPG.Base.Handler

namespace RRPG

/-- The stream an act hands to `Send`. -/
def ClientAct.stream? : ClientAct → Option BitStream
  | .print _ => none
  | .send bs => some bs

/-- The streams that go out. -/
def posted (acts : List ClientAct) : List BitStream := acts.filterMap ClientAct.stream?

section
variable (acts more : List ClientAct) (texts : List Bytes)

@[simp] theorem posted_append : posted (acts ++ more) = posted acts ++ posted more :=
  List.filterMap_append

@[simp] theorem posted_print : posted (texts.map .print) = [] := by
  rw [posted, List.filterMap_map, List.filterMap_eq_nil_iff]
  exact fun _ _ ↦ rfl

@[simp] theorem posted_print_cons (text : Bytes) : posted (.print text :: acts) = posted acts := rfl

end

@[simp] theorem posted_send (bs : BitStream) : posted [.send bs] = [bs] := rfl

namespace GameClient

/-- Run in `s` the program returns `a`, leaves `s'` and does `acts`. -/
def Performs {α : Type} (x : ClientM α) (s : GameClient) (a : α) (s' : GameClient)
    (acts : List ClientAct) : Prop :=
  ∀ before, exec x ⟨s, before⟩ = (.ok a, ⟨s', before ++ acts⟩)

/-- Run in `s` the program does `acts`, leaves `s'` and stops there. -/
def Fails {α : Type} (x : ClientM α) (s : GameClient) (fault : ClientFault) (s' : GameClient)
    (acts : List ClientAct) : Prop :=
  ∀ before, exec x ⟨s, before⟩ = (.error fault, ⟨s', before ++ acts⟩)

section
variable {α β : Type} {x : ClientM α} {f : α → ClientM β} {s s' s'' : GameClient} {a : α} {b : β}
  {fault : ClientFault} {acts more : List ClientAct}

theorem Performs.pure (a : α) (s : GameClient) : Performs (pure a) s a s [] := by
  intro before
  rw [exec_pure, List.append_nil]

theorem Performs.bind (hx : Performs x s a s' acts) (hf : Performs (f a) s' b s'' more) :
    Performs (x >>= f) s b s'' (acts ++ more) := by
  intro before
  rw [exec_bind, hx before, andThen_ok, hf (before ++ acts), List.append_assoc]

/-- After a part without acts. -/
theorem Performs.after (hx : Performs x s a s' []) (hf : Performs (f a) s' b s'' acts) :
    Performs (x >>= f) s b s'' acts :=
  hx.bind hf

theorem Fails.throw (fault : ClientFault) (s : GameClient) :
    Fails (throw fault : ClientM α) s fault s [] := by
  intro before
  rw [exec_throw, List.append_nil]

/-- What comes after a stop is not run. -/
theorem Fails.bind (hx : Fails x s fault s' acts) : Fails (x >>= f) s fault s' acts := by
  intro before
  rw [exec_bind, hx before, andThen_error]

theorem Performs.fails (hx : Performs x s a s' acts) (hf : Fails (f a) s' fault s'' more) :
    Fails (x >>= f) s fault s'' (acts ++ more) := by
  intro before
  rw [exec_bind, hx before, andThen_ok, hf (before ++ acts), List.append_assoc]

/-- After a part without acts. -/
theorem Performs.then_fails (hx : Performs x s a s' []) (hf : Fails (f a) s' fault s'' acts) :
    Fails (x >>= f) s fault s'' acts :=
  hx.fails hf

end

section
variable (s : GameClient)

theorem performs_getClient : Performs getClient s s s [] := by
  intro before
  rw [List.append_nil]
  rfl

theorem performs_update (f : GameClient → GameClient) : Performs (update f) s () (f s) [] := by
  intro before
  rw [List.append_nil]
  rfl

theorem performs_print (text : Bytes) : Performs (print text) s () s [.print text] :=
  fun _ ↦ rfl

theorem performs_send (bs : BitStream) (h : bs ≠ []) : Performs (send bs) s () s [.send bs] := by
  intro before
  rw [send, if_neg h, exec_modify]

/-- Nothing is not sent. -/
theorem fails_send : Fails (send []) s .emptySend s [] := by
  intro before
  rw [send, if_pos rfl, exec_throw, List.append_nil]

/-- A loop that prints. -/
theorem performs_prints {ι : Type} (text : ι → Bytes) (xs : List ι) :
    Performs (xs.forM fun i ↦ print (text i)) s () s (xs.map fun i ↦ .print (text i)) := by
  induction xs with
  | nil => exact Performs.pure () s
  | cons i rest ih =>
    rw [List.forM_eq_forM, List.forM_cons]
    exact (performs_print s (text i)).bind ih

theorem performs_printInstructions :
    Performs printInstructions s () s (s.instructions.map .print) :=
  (performs_getClient s).after (performs_prints s id s.instructions)

end

end GameClient

end RRPG
