import RRPG.Server.Health
import RRPG.Server.Pointer

/-!
# Termination

`NextTurn` returns exactly when somebody is alive. Nothing guards that: an action is applied
whoever sends it and whatever the game state, also to the winner. From the start of a game
on, every handler returns exactly as long as no action kills the last living player.
-/

open RRPG.Base RRPG.Base.Handler

namespace RRPG

/-! ### Who is alive after a change -/

theorem alive_mapVal (players : OrdMap UInt32 Player) (g : UInt32 → Player → Player)
    (hg : Harmless g) (id : UInt32) : Alive (players.mapVal g) id ↔ Alive players id := by
  unfold Alive
  simp only [OrdMap.find?_mapVal, Option.map_eq_some_iff]
  constructor
  · rintro ⟨_, ⟨player, hp, rfl⟩, hd⟩
    exact ⟨player, hp, by rwa [(hg id player).2.2] at hd⟩
  · rintro ⟨player, hp, hd⟩
    exact ⟨g id player, ⟨player, hp, rfl⟩, by rwa [(hg id player).2.2]⟩

theorem alive_started (s : Server) (first id : UInt32) :
    Alive (s.started first).players id ↔ Alive s.players id :=
  alive_mapVal s.players (fun _ player ↦ { player with ready := false })
    (fun _ _ ↦ ⟨rfl, rfl, rfl⟩) id

theorem alive_chosen (p : Packet) (s : Server) (k id : UInt32) :
    Alive (s.withPlayer k (·.chosen p)).players id ↔ Alive s.players id :=
  alive_mapVal s.players _ (harmless_adjust k (·.chosen p) fun _ ↦ ⟨rfl, rfl, rfl⟩) id

theorem alive_emplace (players : OrdMap UInt32 Player) (k : UInt32) (player : Player)
    (id : UInt32) (h : Alive players id) : Alive (players.emplace k player) id := by
  obtain ⟨q, hq, hd⟩ := h
  have hmem := (players.mem_iff_find? id).mpr ⟨q, hq⟩
  refine ⟨q, ?_, hd⟩
  rw [OrdMap.find?_emplace, if_neg]
  · exact hq
  · rintro ⟨rfl, hnew⟩
    exact hnew hmem

/-- A strike kills at most its target. -/
theorem alive_struck (players : OrdMap UInt32 Player) (id : UInt32) (player : Player)
    (diff : Int) (hp : players.find? id = some player) (j : UInt32) :
    Alive (players.adjust id (·.struck diff)) j ↔
      Alive players j ∧ ¬ (j = id ∧ int32 (player.health + diff) ≤ 0) := by
  unfold Alive
  by_cases hj : j = id
  · subst hj
    simp [hp, Player.struck]
  · simp [OrdMap.find?_adjust, hj]

/-- An action kills at most its target. -/
theorem alive_acted (S : Setup) (c : Chance) (p : Packet) (s : Server) (id : UInt32)
    (player : Player) (hp : s.players.find? id = some player) (j : UInt32) :
    Alive (s.acted S c p id).players j ↔ Alive s.players j ∧
      ¬ (j = id ∧ ∃ diff, diff? S c p = some diff ∧ int32 (player.health + diff) ≤ 0) := by
  unfold Server.acted
  cases diff? S c p with
  | none => simp
  | some diff => simpa using alive_struck s.players id player diff hp j

/-! ### One step -/

/-- The packet is an action that kills the only living player. -/
def KillsLast (S : Setup) (c : Chance) (p : Packet) (s : Server) : Prop :=
  ∃ id player diff, Strikes S c p s id player diff ∧
    (∀ j, Alive s.players j ↔ j = id) ∧ int32 (player.health + diff) ≤ 0

/-- With a valid pointer and a player for every address, `NextTurn` returns exactly when
somebody is alive, and hangs otherwise. -/
theorem NextTurnDoes.returns_iff {s s' : Server} {r : Except Halt Unit} {es : List Effect}
    (h : NextTurnDoes s r s' es) (hv : s.Valid) (hcur : s.currentPlayerTurn ∈ s.players) :
    (r = .ok () ↔ ∃ id, Alive s.players id) ∧ (r = .ok () ∨ r = .error .hang) := by
  cases h with
  | unset hunset => exact absurd hcur hunset
  | hangs _ hdead => exact ⟨by simp [hdead], .inr rfl⟩
  | ends _ id hnext hone => exact ⟨⟨fun _ ↦ ⟨id, hnext.living⟩, fun _ ↦ rfl⟩, .inl rfl⟩
  | passes _ id hnext hmany systemAddress haddr =>
    exact ⟨⟨fun _ ↦ ⟨id, hnext.living⟩, fun _ ↦ rfl⟩, .inl rfl⟩
  | lost _ id hnext hmany haddr => exact absurd ((hv.registered id).mp hnext.living.mem) haddr

/-- With somebody alive, `NextTurn` goes to the next living player: it ends the game there if
no other is left, and hands out the turn otherwise. -/
theorem NextTurnDoes.of_alive {s s' : Server} {r : Except Halt Unit} {es : List Effect}
    (h : NextTurnDoes s r s' es) (hv : s.Valid) (hcur : s.currentPlayerTurn ∈ s.players)
    (halive : ∃ id, Alive s.players id) :
    r = .ok () ∧ ∃ id, Next (Alive s.players) s.currentPlayerTurn id ∧
      ((s.living = 1 ∧ s' = { s with currentPlayerTurn := id, gameState := .gsGameOver } ∧
          entries es = [(.gameOver id, { s with currentPlayerTurn := id })] ∧ turns es = []) ∨
        (s.living ≠ 1 ∧ s' = { s with currentPlayerTurn := id } ∧
          ∃ systemAddress, s.playerAddresses.find? id = some systemAddress ∧
            entries es = [] ∧
            turns es = [(systemAddress, { s with currentPlayerTurn := id })])) := by
  cases h with
  | unset hunset => exact absurd hcur hunset
  | hangs _ hdead => exact absurd halive hdead
  | ends _ id hnext hone => exact ⟨rfl, id, hnext, .inl ⟨hone, rfl, by simp, by simp⟩⟩
  | passes _ id hnext hmany systemAddress haddr =>
    exact ⟨rfl, id, hnext, .inr ⟨hmany, rfl, systemAddress, haddr, by simp, by simp⟩⟩
  | lost _ id hnext hmany haddr => exact absurd ((hv.registered id).mp hnext.living.mem) haddr

/-- A packet a registered player may send once the game has started. -/
structure Permitted (S : Setup) (s : Server) (e : Event) : Prop where
  kind : e.packet.kind ∈ [some .cReady, some .cUnready, some .cChat, some .cJobChosen,
    some .cActionTaken]
  sender : S.id e.packet ∈ s.players
  target : e.packet.kind = some .cActionTaken → target? S e.chance e.packet s ≠ none

/-- The same players under the same names. -/
def SameNames (s s' : Server) : Prop :=
  ∀ id, (s'.players.find? id).map Player.name = (s.players.find? id).map Player.name

theorem SameNames.mem {s s' : Server} (h : SameNames s s') (id : UInt32) :
    id ∈ s'.players ↔ id ∈ s.players := by
  have := congrArg Option.isSome (h id)
  simp only [Option.isSome_map] at this
  rw [OrdMap.mem_iff_find?, OrdMap.mem_iff_find?, ← Option.isSome_iff_exists,
    ← Option.isSome_iff_exists, this]

/-- Actions are aimed by names. -/
theorem SameNames.target?_eq {S : Setup} {c : Chance} {p : Packet} {s s' : Server}
    (h : SameNames s s') : target? S c p s' = target? S c p s := by
  unfold target? Server.getPlayerWithName
  apply OrdMap.findKey?_congr
  intro k
  have hname := congrArg (Option.any fun name ↦ name = (readAction S c p).2) (h k)
  simpa only [Option.any_map] using hname

theorem Permitted.of_sameNames {S : Setup} {s s' : Server} {e : Event} (h : Permitted S s e)
    (hs : SameNames s s') : Permitted S s' e :=
  ⟨h.kind, (hs.mem _).mpr h.sender, fun hk ↦ hs.target?_eq ▸ h.target hk⟩

/-- No packet but an introduction changes who is registered under which name. -/
theorem Handled.sameNames {S : Setup} {c : Chance} {p : Packet} {s s' : Server}
    {r : Except Halt Unit} {es : List Effect} (h : Handled S c p s r s' es)
    (hk : p.kind ≠ some .cIntro) : SameNames s s' := by
  have hchange := h.playersChange
  intro id
  generalize s'.players = players at hchange
  cases hchange with
  | joined hk' => exact absurd hk' hk
  | kept hno g hg =>
    rw [OrdMap.find?_mapVal, Option.map_map]
    congr 1
    funext player
    exact (hg id player).1
  | struck id' player diff hstrike =>
    rw [OrdMap.find?_adjust]
    split
    · rw [Option.map_map]
      rfl
    · rfl

/-- Somebody stays alive unless the last living player is killed. -/
theorem Handled.alive_iff {S : Setup} {c : Chance} {p : Packet} {s s' : Server}
    {r : Except Halt Unit} {es : List Effect} (h : Handled S c p s r s' es)
    (halive : ∃ id, Alive s.players id) :
    (∃ id, Alive s'.players id) ↔ ¬ KillsLast S c p s := by
  have hchange := h.playersChange
  obtain ⟨k, hk⟩ := halive
  generalize s'.players = players at hchange
  cases hchange with
  | joined hk' =>
    exact ⟨fun _ ⟨_, _, _, hs, _⟩ ↦ by simpa [hk'] using hs.kind,
      fun _ ↦ ⟨k, alive_emplace _ _ _ k hk⟩⟩
  | kept hno g hg =>
    exact ⟨fun _ ⟨id, player, diff, hs, _⟩ ↦ hno id player diff hs,
      fun _ ↦ ⟨k, (alive_mapVal _ g hg k).mpr hk⟩⟩
  | struck id player diff hstrike =>
    simp only [alive_struck s.players id player diff hstrike.find]
    constructor
    · rintro ⟨j, hj, hnot⟩ ⟨id', player', diff', hstrike', honly, hdead⟩
      obtain ⟨rfl, rfl, rfl⟩ := hstrike.unique hstrike'
      exact hnot ⟨(honly j).mp hj, hdead⟩
    · intro hkills
      by_contra hnone
      have hdies (j : UInt32) (hj : Alive s.players j) :
          j = id ∧ int32 (player.health + diff) ≤ 0 := by
        by_contra hn
        exact hnone ⟨j, hj, hn⟩
      refine hkills ⟨id, player, diff, hstrike, ?_, (hdies k hk).2⟩
      exact fun j ↦ ⟨fun hj ↦ (hdies j hj).1, fun hj ↦ hj ▸ (hdies k hk).1 ▸ hk⟩

/-- After the start of a game, a permitted packet's handler returns exactly when it leaves
somebody alive, and hangs otherwise. -/
theorem Handled.returns_iff {S : Setup} {e : Event} {s s' : Server} {r : Except Halt Unit}
    {es : List Effect} (h : Handled S e.chance e.packet s r s' es) (hperm : Permitted S s e)
    (hv : s.Valid) (hstarted : s.networkState = .nsGameStarted)
    (halive : ∃ id, Alive s.players id) :
    (r = .ok () ↔ ∃ id, Alive s'.players id) ∧ (r = .ok () ∨ r = .error .hang) := by
  have hcur := hv.pointer hstarted
  have hkept (hk : e.packet.kind ≠ some .cActionTaken) : ∃ id, Alive s'.players id :=
    (h.alive_iff halive).mpr fun ⟨_, _, _, hs, _⟩ ↦ hk hs.kind
  have hok (hk : e.packet.kind ≠ some .cActionTaken) (hr : r = .ok ()) :
      (r = .ok () ↔ ∃ id, Alive s'.players id) ∧ (r = .ok () ∨ r = .error .hang) :=
    ⟨⟨fun _ ↦ hkept hk, fun _ ↦ hr⟩, .inl hr⟩
  obtain ⟨k, hk⟩ : ∃ k, e.packet.kind = some k := by
    have := hperm.kind
    cases hkind : e.packet.kind with
    | none => simp [hkind] at this
    | some k => exact ⟨k, rfl⟩
  have hlow := Handled.not_low_level hk
  cases h with
  | malformed hid => exact absurd hid hlow.1
  | counted i hi => simp [hlow.2] at hi
  | quiet _ hq =>
    have := hperm.kind
    simp_all
  | chats hk' _ => exact hok (by simp [hk']) rfl
  | stranger _ _ _ hnone => exact absurd hperm.sender hnone
  | joins hk' =>
    have := hperm.kind
    simp [hk'] at this
  | readies hk' _ _ => exact hok (by simp [hk']) rfl
  | starts hk' hsender hall r s' es hstart =>
    apply hok (by simp [hk'])
    have hv₁ := hv.withPlayer (S.id e.packet) (·.withReady true)
    obtain ⟨_, _, _, _, hr, _⟩ := hstart.of_registered hv₁.registered
      ⟨S.id e.packet, by simpa using hsender⟩
    exact hr
  | unreadies hk' _ => exact hok (by simp [hk']) rfl
  | chooses hk' _ r s' es hchosen =>
    have hv₁ := hv.withPlayer (S.id e.packet) (·.chosen e.packet)
    cases hchosen with
    | unset hunset => exact absurd (by simpa using hcur) hunset
    | passes _ id hnext systemAddress haddr => exact hok (by simp [hk']) rfl
    | lost _ id hnext haddr =>
      exact absurd (hv₁.next_registered hnext) haddr
    | starts hcur' _ r s' es hturn =>
      have := hturn.returns_iff (hv₁.withGameState .gsMain) hcur'
      rwa [← hturn.players] at this
  | misses hk' _ htarget => exact absurd htarget (hperm.target hk')
  | acts hk' _ id player htarget hp r s' es hturn =>
    have hv₁ := hv.acted S e.chance e.packet id
    have hnet : (s.acted S e.chance e.packet id).networkState = .nsGameStarted := by
      rw [Server.acted_networkState, hstarted]
    have := hturn.returns_iff hv₁ (hv₁.pointer hnet)
    rwa [← hturn.players] at this

theorem NextTurnDoes.alive {s s' : Server} {es : List Effect}
    (h : NextTurnDoes s (.ok ()) s' es) : ∃ id, Alive s.players id := by
  cases h with
  | ends _ id hnext hone => exact ⟨id, hnext.living⟩
  | passes _ id hnext hmany systemAddress haddr => exact ⟨id, hnext.living⟩

/-- A handler that returned called `NextTurn` only with somebody alive. -/
theorem Handled.alive_at_nextTurn {S : Setup} {c : Chance} {p : Packet} {s s' : Server}
    {es : List Effect} (h : Handled S c p s (.ok ()) s' es) (t : Server)
    (ht : (.nextTurn, t) ∈ entries es) : ∃ id, Alive t.players id := by
  cases h with
  | joins hk =>
    split at ht <;> simp at ht
  | starts hk hsender hall _ s' es hstart =>
    cases hstart
    simp at ht
  | chooses hk hsender _ s' es hchosen =>
    cases hchosen with
    | passes => simp at ht
    | starts hcur hnext _ s' es hturn =>
      simp [hturn.not_entered .nextTurn] at ht
      exact ht ▸ hturn.alive
  | acts hk hsender id player htarget hp _ s' es hturn =>
    have : t = s.acted S c p id := by simpa [hturn.not_entered .nextTurn] using ht
    exact this ▸ hturn.alive
  | _ => simp at ht

/-! ### Runs -/

/-- What every returning run from the lobby leaves: once there are players somebody is
alive, and `NextTurn` was only called with somebody alive. -/
structure SomebodyAlive (w : World) : Prop where
  alive : (∃ id, id ∈ w.server.players) → ∃ id, Alive w.server.players id
  called : ∀ t, (.nextTurn, t) ∈ entries w.trace → ∃ id, Alive t.players id

theorem Handled.somebodyAlive {S : Setup} {c : Chance} {p : Packet} {s s' : Server}
    {es : List Effect} (h : Handled S c p s (.ok ()) s' es)
    (hs : (∃ id, id ∈ s.players) → ∃ id, Alive s.players id) :
    (∃ id, id ∈ s'.players) → ∃ id, Alive s'.players id := by
  rintro ⟨j, hj⟩
  by_cases hne : ∃ id, id ∈ s.players
  · apply (h.alive_iff (hs hne)).mpr
    intro hkills
    obtain ⟨id, player, diff, hstrike, _⟩ := id hkills
    rcases h.of_action_taken hstrike.kind hstrike.sender with
      ⟨_, hr, _⟩ | ⟨id', player', es', _, _, hturn, _⟩
    · cases hr
    · exact (h.alive_iff (hs hne)).mp (hturn.players ▸ hturn.alive) hkills
  · have hchange := h.playersChange
    generalize s'.players = players at hchange hj
    cases hchange with
    | joined hk =>
      refine ⟨S.id p, { name := (S.decodeString 256 p.payload).1 }, ?_, rfl⟩
      rw [OrdMap.find?_emplace, if_pos ⟨rfl, fun hid ↦ hne ⟨_, hid⟩⟩]
    | kept hno g hg => exact absurd ⟨j, (OrdMap.mem_mapVal _ _ _).mp hj⟩ hne
    | struck id player diff hstrike =>
      exact absurd ⟨j, (OrdMap.mem_adjust _ _ _ _).mp hj⟩ hne

theorem somebodyAlive_step {S : Setup} (e : Event) (v v' : World) (hv : SomebodyAlive v)
    (h : exec (packetHandler S e.chance e.packet) v = (.ok (), v')) : SomebodyAlive v' := by
  obtain ⟨es, htrace, hhandled⟩ := handled_of_exec S e.chance e.packet v v' _ h
  refine ⟨hhandled.somebodyAlive hv.alive, fun t ht ↦ ?_⟩
  rw [htrace, entries_append, List.mem_append] at ht
  rcases ht with ht | ht
  · exact hv.called t ht
  · exact hhandled.alive_at_nextTurn t (by rwa [entries_core])

theorem somebodyAlive (S : Setup) (events : List Event) (w w' : World) (hw : SomebodyAlive w)
    (h : exec (serve S events) w = (.ok (), w')) : SomebodyAlive w' :=
  run_induction _ (fun _ w ↦ SomebodyAlive w) w hw
    (fun _ e v v' _ hv he ↦ somebodyAlive_step e v v' hv he) events w' h

/-- What holds between packets once a game has started on `s₀`. -/
structure Playing (s₀ s : Server) : Prop where
  valid : s.Valid
  started : s.networkState = .nsGameStarted
  alive : ∃ id, Alive s.players id
  names : SameNames s₀ s

theorem somebodyAlive_outcome (S : Setup) (events : List Event) (w : World)
    (h : outcome S events = (.ok (), w)) : SomebodyAlive w :=
  somebodyAlive S events ⟨Server.init, []⟩ w
    ⟨fun ⟨id, hid⟩ ↦ by simp [Server.init] at hid, by simp⟩ h

/-- It holds once `StartGame` has been entered. -/
theorem playing_of_started (S : Setup) (before : List Event) (w : World)
    (hbefore : outcome S before = (.ok (), w))
    (hstarted : ∃ t, (.startGame, t) ∈ entries w.trace) : Playing w.server w.server := by
  have hpointer := pointerHistory S before
  rw [hbefore] at hpointer
  have halive := somebodyAlive_outcome S before w hbefore
  have hnet := hpointer.started hstarted
  exact ⟨hpointer.valid, hnet, halive.alive ⟨_, hpointer.valid.pointer hnet⟩, fun _ ↦ rfl⟩

theorem Permitted.not_intro {S : Setup} {s : Server} {e : Event} (h : Permitted S s e) :
    e.packet.kind ≠ some .cIntro := by
  intro hk
  have := h.kind
  simp [hk] at this

theorem Playing.step {S : Setup} {s₀ : Server} {e : Event} {v v' : World}
    {r : Except Halt Unit} (hv : Playing s₀ v.server) (hperm : Permitted S s₀ e)
    (h : exec (packetHandler S e.chance e.packet) v = (r, v')) :
    (¬ KillsLast S e.chance e.packet v.server → r = .ok () ∧ Playing s₀ v'.server) ∧
      (KillsLast S e.chance e.packet v.server → r = .error .hang) := by
  obtain ⟨es, _, hhandled⟩ := handled_of_exec S e.chance e.packet v v' r h
  have hperm' := hperm.of_sameNames hv.names
  have hreturns := hhandled.returns_iff hperm' hv.valid hv.started hv.alive
  have halive := hhandled.alive_iff hv.alive
  have hkept := hhandled.pointerKept hv.valid
  constructor
  · intro hno
    have hsome := halive.mpr hno
    refine ⟨hreturns.1.mpr hsome, hkept.valid, (hkept.started hv.started).1, hsome, fun id ↦ ?_⟩
    rw [hhandled.sameNames hperm'.not_intro id, hv.names id]
  · intro hkills
    rcases hreturns.2 with hr | hr
    · exact absurd hkills (halive.mp (hreturns.1.mp hr))
    · exact hr

/-- After the start of a game, and for packets of registered players, every handler returns
and every call of `NextTurn` finds somebody alive exactly when no action kills the last
living player. -/
theorem serve_returns_iff (S : Setup) (before after : List Event) (w : World)
    (hbefore : outcome S before = (.ok (), w))
    (hstarted : ∃ t, (.startGame, t) ∈ entries w.trace)
    (hafter : ∀ e ∈ after, Permitted S w.server e) :
    ((exec (serve S after) w).1 = .ok () ∧
      ∀ t, (.nextTurn, t) ∈ entries (exec (serve S after) w).2.trace →
        ∃ id, Alive t.players id) ↔
    ∀ pre e post v, after = pre ++ e :: post → exec (serve S pre) w = (.ok (), v) →
      ¬ KillsLast S e.chance e.packet v.server := by
  have halive := somebodyAlive_outcome S before w hbefore
  have hplaying := playing_of_started S before w hbefore hstarted
  refine Iff.trans ⟨fun h ↦ h.1, fun h ↦ ⟨h, ?_⟩⟩ (run_returns_iff _
    (fun v : World ↦ Playing w.server v.server)
    (fun (e : Event) v ↦ ¬ KillsLast S e.chance e.packet v.server) after w hplaying ?_ ?_)
  · exact (somebodyAlive S after w _ halive (Prod.ext h rfl)).called
  · intro e he v hv hno
    obtain ⟨hr, hv'⟩ := (hv.step (hafter e he) rfl).1 hno
    exact ⟨_, Prod.ext hr rfl, hv'⟩
  · intro e he v hv hkills
    exact ⟨.hang, _, Prod.ext ((hv.step (hafter e he) rfl).2 (not_not.mp hkills)) rfl⟩

/-- A single player has won at once. -/
def won : World := (outcome (.plain 1) (opening [1])).2

/-- The winner strikes itself nine times. -/
def selfStrikes : List Event :=
  List.replicate 9 (clientEvent 1 RRPGId.cActionTaken.byte [2])

theorem won_started : ∃ t, (.startGame, t) ∈ entries won.trace :=
  exists_entry (by decide +kernel)

private theorem selfStrikes_permitted : ∀ e ∈ selfStrikes, Permitted (.plain 1) won.server e := by
  intro e he
  obtain rfl := List.eq_of_mem_replicate he
  exact ⟨by decide +kernel, by decide +kernel, fun _ ↦ by decide +kernel⟩

/-- The ninth strike leaves nobody for `NextTurn` to go to. -/
theorem selfStrikes_hang : outcome (.plain 1) (opening [1]) = (.ok (), won) ∧
    (∃ t, (.startGame, t) ∈ entries won.trace) ∧
    (∀ e ∈ selfStrikes, Permitted (.plain 1) won.server e) ∧
    (exec (serve (.plain 1) selfStrikes) won).1 = .error .hang :=
  ⟨Prod.ext (by decide +kernel) rfl, won_started, selfStrikes_permitted, by decide +kernel⟩

/-- Some strike of the nine kills the last living player. -/
theorem selfStrikes_kill : ¬ ∀ pre e post v, selfStrikes = pre ++ e :: post →
    exec (serve (.plain 1) pre) won = (.ok (), v) →
    ¬ KillsLast (.plain 1) e.chance e.packet v.server := by
  rw [← serve_returns_iff (.plain 1) (opening [1]) selfStrikes won
    (Prod.ext (by decide +kernel) rfl) won_started selfStrikes_permitted]
  exact fun h ↦ absurd h.1 (by decide +kernel)

end RRPG
