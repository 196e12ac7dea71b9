import RRPG.Server.Handlers

/-!
# Primitive steps, evaluated

What each primitive step does to a world, and what can be read off a trace: the turns
handed out and the member functions entered.
-/

open RRPG.Base RRPG.Base.Handler

namespace RRPG

/-! ### Evaluation -/

@[simp] theorem exec_getServer (w : World) : exec getServer w = (.ok w.server, w) := by
  simp [getServer]

@[simp] theorem exec_update (f : Server → Server) (w : World) :
    exec (update f) w = (.ok (), { w with server := f w.server }) := by
  simp [update]

@[simp] theorem exec_emit (act : Act) (w : World) :
    exec (emit act) w = (.ok (), { w with trace := w.trace ++ [⟨act, w.server⟩] }) := by
  simp [emit]

@[simp] theorem exec_findPlayer (id : UInt32) (w : World) :
    exec (findPlayer id) w = (.ok (if id ∈ w.server.players then some id else none), w) := by
  simp [findPlayer]

@[simp] theorem exec_increment_some (id : UInt32) (w : World) :
    exec (increment (some id)) w = (.ok (w.server.players.next? id), w) := by
  simp [increment]

/-- What `BroadcastMessage` does. -/
def broadcastEffects (s : Server) (input : Bytes) : List Effect :=
  if input.length = 0 then []
  else
    let pre := ascii "[Server] "
    [⟨.memcpy (2048 + pre.length) 0 pre.length, s⟩,
      ⟨.memcpy (2048 + pre.length) pre.length (input.length + 1), s⟩,
      ⟨.send .all (.text (pre ++ input)), s⟩]

@[simp] theorem exec_broadcastMessage (input : Bytes) (w : World) :
    exec (broadcastMessage input) w =
      (.ok (), { w with trace := w.trace ++ broadcastEffects w.server input }) := by
  unfold broadcastMessage broadcastEffects
  split
  · simp
  · simp [send]

/-! ### Reading a trace -/

/-- Acts of the game proper: no text, no reply to a request, no buffer copy. -/
def Act.isCore : Act → Bool
  | .send _ (.text _) => false
  | .send _ (.replyPlayerListRequest _) => false
  | .send _ (.replyPlayerStatsRequest _) => false
  | .send _ .gameStarted => true
  | .send _ .takeTurn => true
  | .send _ (.updateGameState _ _) => true
  | .send _ (.updatePlayerHp _ _) => true
  | .closeConnection _ => true
  | .memcpy _ _ _ => false
  | .enter _ => true

/-- The effects of the game proper, oldest first. -/
def core (trace : List Effect) : List Effect := trace.filter (fun e ↦ e.act.isCore)

/-- The address and the server of a turn handed out. -/
def Effect.turn? : Effect → Option (SystemAddress × Server)
  | ⟨.send (.system systemAddress) .takeTurn, s⟩ => some (systemAddress, s)
  | _ => none

/-- The turns handed out, oldest first. -/
def turns (trace : List Effect) : List (SystemAddress × Server) :=
  trace.filterMap Effect.turn?

/-- The member function entered, and the server then. -/
def Effect.entry? : Effect → Option (Routine × Server)
  | ⟨.enter routine, s⟩ => some (routine, s)
  | _ => none

/-- The member functions entered, oldest first. -/
def entries (trace : List Effect) : List (Routine × Server) :=
  trace.filterMap Effect.entry?

@[simp] theorem core_nil : core [] = [] := rfl

@[simp] theorem turns_nil : turns [] = [] := rfl

@[simp] theorem entries_nil : entries [] = [] := rfl

@[simp] theorem core_cons (e : Effect) (t : List Effect) :
    core (e :: t) = if e.act.isCore then e :: core t else core t :=
  List.filter_cons

@[simp] theorem turns_cons (e : Effect) (t : List Effect) :
    turns (e :: t) = e.turn?.toList ++ turns t := by
  cases h : e.turn? <;> simp [turns, h]

@[simp] theorem entries_cons (e : Effect) (t : List Effect) :
    entries (e :: t) = e.entry?.toList ++ entries t := by
  cases h : e.entry? <;> simp [entries, h]

attribute [simp] Act.isCore Effect.turn? Effect.entry?

@[simp] theorem core_append (t u : List Effect) : core (t ++ u) = core t ++ core u :=
  List.filter_append t u

@[simp] theorem turns_append (t u : List Effect) : turns (t ++ u) = turns t ++ turns u :=
  List.filterMap_append

@[simp] theorem entries_append (t u : List Effect) :
    entries (t ++ u) = entries t ++ entries u :=
  List.filterMap_append

@[simp] theorem core_broadcast (s : Server) (input : Bytes) :
    core (broadcastEffects s input) = [] := by
  unfold broadcastEffects
  split <;> rfl

/-- What only effects of the game proper contribute to can be read off them. -/
theorem filterMap_core {β : Type} (f : Effect → Option β)
    (hf : ∀ e, f e ≠ none → e.act.isCore = true) (t : List Effect) :
    (core t).filterMap f = t.filterMap f := by
  induction t with
  | nil => rfl
  | cons e t ih =>
    by_cases he : e.act.isCore = true
    · rw [core_cons, if_pos he, List.filterMap_cons, List.filterMap_cons, ih]
    · have hn : f e = none := by
        by_contra hn
        exact he (hf e hn)
      rw [core_cons, if_neg he, List.filterMap_cons, hn, ih]

@[simp] theorem turns_core (t : List Effect) : turns (core t) = turns t := by
  refine filterMap_core Effect.turn? ?_ t
  rintro ⟨act, s⟩ he
  unfold Effect.turn? at he
  split at he
  · next h => cases h; rfl
  · exact absurd rfl he

@[simp] theorem entries_core (t : List Effect) : entries (core t) = entries t := by
  refine filterMap_core Effect.entry? ?_ t
  rintro ⟨act, s⟩ he
  unfold Effect.entry? at he
  split at he
  · next h => cases h; rfl
  · exact absurd rfl he

/-- What was entered was entered on some server. -/
theorem exists_entry {routine : Routine} {trace : List Effect}
    (h : routine ∈ (entries trace).map Prod.fst) : ∃ t, (routine, t) ∈ entries trace := by
  obtain ⟨⟨_, t⟩, ht, rfl⟩ := List.mem_map.mp h
  exact ⟨t, ht⟩

/-! ### Outcomes -/

/-- Started on `s`, the computation ends with `r` on `s'`, whatever happened before; what
it does for the game proper on the way is `effects`. -/
def Does {α : Type} (x : ServerM α) (s : Server) (r : Except Halt α) (s' : Server)
    (effects : List Effect) : Prop :=
  ∀ trace, ∃ es, exec x ⟨s, trace⟩ = (r, ⟨s', trace ++ es⟩) ∧ core es = effects

variable {α β : Type} {s s₁ s₂ : Server} {e₁ e₂ : List Effect}

theorem Does.pure (a : α) (s : Server) : Does (pure a) s (.ok a) s [] :=
  fun _ ↦ ⟨[], by simp, rfl⟩

theorem Does.throw (h : Halt) (s : Server) : Does (throw h : ServerM α) s (.error h) s [] :=
  fun _ ↦ ⟨[], by simp, rfl⟩

/-- What a computation does is determined by where it started. -/
theorem Does.of_exec {x : ServerM α} {r r' : Except Halt α} {w w' : World}
    (h : Does x w.server r s₁ e₁) (hexec : exec x w = (r', w')) :
    r' = r ∧ w'.server = s₁ ∧ ∃ es, w'.trace = w.trace ++ es ∧ core es = e₁ := by
  obtain ⟨es, hes, hcore⟩ := h w.trace
  obtain ⟨rfl, rfl⟩ := Prod.mk.inj (hexec.symm.trans hes)
  exact ⟨rfl, rfl, es, rfl, hcore⟩

/-- A continuation does what it does after what came before. -/
theorem Does.bind {x : ServerM α} {f : α → ServerM β} {a : α} {r : Except Halt β}
    (hx : Does x s (.ok a) s₁ e₁) (hf : Does (f a) s₁ r s₂ e₂) :
    Does (x >>= f) s r s₂ (e₁ ++ e₂) := by
  intro trace
  obtain ⟨u, hu, hcu⟩ := hx trace
  obtain ⟨v, hv, hcv⟩ := hf (trace ++ u)
  refine ⟨u ++ v, ?_, by rw [core_append, hcu, hcv]⟩
  rw [exec_bind, hu, andThen_ok, hv, List.append_assoc]

/-- Nothing follows a stop. -/
theorem Does.bind_error {x : ServerM α} {f : α → ServerM β} {h : Halt}
    (hx : Does x s (.error h) s₁ e₁) : Does (x >>= f) s (.error h) s₁ e₁ := by
  intro trace
  obtain ⟨u, hu, hcu⟩ := hx trace
  refine ⟨u, ?_, hcu⟩
  rw [exec_bind, hu, andThen_error]

theorem Does.ite_pos {c : Prop} [Decidable c] {x y : ServerM α} {r : Except Halt α} (h : c)
    (hx : Does x s r s₁ e₁) : Does (if c then x else y) s r s₁ e₁ := by
  rwa [if_pos h]

theorem Does.ite_neg {c : Prop} [Decidable c] {x y : ServerM α} {r : Except Halt α} (h : ¬ c)
    (hy : Does y s r s₁ e₁) : Does (if c then x else y) s r s₁ e₁ := by
  rwa [if_neg h]

theorem does_getServer (s : Server) : Does getServer s (.ok s) s [] :=
  fun _ ↦ ⟨[], by simp, rfl⟩

theorem does_update (f : Server → Server) (s : Server) : Does (update f) s (.ok ()) (f s) [] :=
  fun _ ↦ ⟨[], by simp, rfl⟩

theorem does_updatePlayer (id : UInt32) (f : Player → Player) (s : Server) :
    Does (updatePlayer id f) s (.ok ()) { s with players := s.players.adjust id f } [] :=
  does_update _ s

theorem does_emit (act : Act) (s : Server) : Does (emit act) s (.ok ()) s (core [⟨act, s⟩]) :=
  fun _ ↦ ⟨[⟨act, s⟩], by simp, rfl⟩

theorem does_send (dest : Dest) (message : Message) (s : Server) :
    Does (send dest message) s (.ok ()) s (core [⟨.send dest message, s⟩]) :=
  does_emit _ s

theorem does_broadcastMessage (input : Bytes) (s : Server) :
    Does (broadcastMessage input) s (.ok ()) s [] :=
  fun _ ↦ ⟨broadcastEffects s input, by simp, by simp⟩

theorem does_findPlayer (id : UInt32) (s : Server) :
    Does (findPlayer id) s (.ok (if id ∈ s.players then some id else none)) s [] :=
  fun _ ↦ ⟨[], by simp, rfl⟩

theorem does_increment_none (s : Server) :
    Does (increment none) s (.error (.abort .advanceEnd)) s [] :=
  Does.throw _ s

theorem does_increment_some (id : UInt32) (s : Server) :
    Does (increment (some id)) s (.ok (s.players.next? id)) s [] :=
  fun _ ↦ ⟨[], by simp, rfl⟩

theorem does_deref_none (s : Server) : Does (deref none) s (.error (.abort .derefEnd)) s [] :=
  Does.throw _ s

theorem does_deref_some (id : UInt32) (player : Player) (s : Server)
    (h : s.players.find? id = some player) :
    Does (deref (some id)) s (.ok (id, player)) s [] :=
  fun _ ↦ ⟨[], by simp [deref, h], rfl⟩

theorem does_getPlayer (id : UInt32) (player : Player) (s : Server)
    (h : s.players.find? id = some player) : Does (getPlayer id) s (.ok player) s [] :=
  fun _ ↦ ⟨[], by simp [getPlayer, h], rfl⟩

theorem does_getPlayer_none (id : UInt32) (s : Server) (h : id ∉ s.players) :
    Does (getPlayer id) s (.error (.abort (.getPlayer id))) s [] :=
  fun _ ↦ ⟨[], by simp [getPlayer, (s.players.find?_eq_none id).mpr h], rfl⟩

theorem does_getAddressFromID (id : UInt32) (systemAddress : SystemAddress) (s : Server)
    (h : s.playerAddresses.find? id = some systemAddress) :
    Does (getAddressFromID id) s (.ok systemAddress) s [] :=
  fun _ ↦ ⟨[], by simp [getAddressFromID, h], rfl⟩

theorem does_getAddressFromID_none (id : UInt32) (s : Server) (h : id ∉ s.playerAddresses) :
    Does (getAddressFromID id) s (.error (.abort (.getAddressFromID id))) s [] :=
  fun _ ↦ ⟨[], by simp [getAddressFromID, (s.playerAddresses.find?_eq_none id).mpr h], rfl⟩

end RRPG
