import RRPG.Server.Termination

/-!
# A game in turns

After `StartGame`, every turn handed out is answered at most once and by its recipient: with
a job during character selection, with an action in the main game. Such a game goes through
three phases, has at most one turn outstanding, and ends with the last player alive.
-/

open RRPG.Base RRPG.Base.Handler

namespace RRPG

/-- The players are registered and fresh, as `StartGame` expects them. -/
structure Fresh (s : Server) : Prop where
  registered : ∀ id, id ∈ s.players ↔ id ∈ s.playerAddresses
  nonempty : ∃ id, id ∈ s.players
  fresh : ∀ id player, s.players.find? id = some player →
    player.health = 100 ∧ player.dead = false

/-- A game under way: the addresses whose turns are not answered yet. -/
structure Position where
  world : World
  halt : Option Halt
  pending : List SystemAddress

/-- The kind of answer a game state asks for. -/
def answerKind : GameState → Option RRPGId
  | .gsCharacterSelect => some .cJobChosen
  | .gsMain => some .cActionTaken
  | _ => none

/-- The packets processed in such a game, and the turns they leave unanswered. -/
inductive InTurn (S : Setup) (pos : Position) (e : Event) : List SystemAddress → Prop
  | answer (systemAddress : SystemAddress) (hpending : systemAddress ∈ pos.pending)
      (hrecipient : pos.world.server.playerAddresses.find? (S.id e.packet) = some systemAddress)
      (k : RRPGId) (hk : e.packet.kind = some k)
      (hkind : answerKind pos.world.server.gameState = some k)
      (htarget : k = .cActionTaken → target? S e.chance e.packet pos.world.server ≠ none) :
    InTurn S pos e (pos.pending.erase systemAddress)
  | other (hk : e.packet.kind ∉ [some .cIntro, some .cReady, some .cUnready,
      some .cJobChosen, some .cActionTaken]) : InTurn S pos e pos.pending

/-- The positions of a game started on `s₀`. -/
inductive Game (S : Setup) (s₀ : Server) : Position → Prop
  | start (r : Except Halt Unit) (w : World) (h : exec startGame ⟨s₀, []⟩ = (r, w)) :
    Game S s₀ ⟨w, haltOf r, (turns w.trace).map Prod.fst⟩
  | step (pos : Position) (hpos : Game S s₀ pos) (hrunning : pos.halt = none) (e : Event)
      (pending : List SystemAddress) (hturn : InTurn S pos e pending) (r : Except Halt Unit)
      (s' : Server) (es : List Effect)
      (h : exec (packetHandler S e.chance e.packet) pos.world =
        (r, ⟨s', pos.world.trace ++ es⟩)) :
    Game S s₀ ⟨⟨s', pos.world.trace ++ es⟩, haltOf r, pending ++ (turns es).map Prod.fst⟩

/-! ### Counting the living -/

theorem living_of_all_alive (s : Server) (h : ∀ id, id ∈ s.players → Alive s.players id) :
    s.living = s.players.size := by
  apply OrdMap.count_eq_size
  intro id player hp
  obtain ⟨q, hq, hd⟩ := h id ((OrdMap.mem_iff_find? _ _).mpr ⟨player, hp⟩)
  obtain rfl := Option.some.inj (hp.symm.trans hq)
  simp [hd]

theorem alive_of_living (s : Server) (h : s.living ≠ 0) : ∃ id, Alive s.players id := by
  by_contra hn
  exact h ((living_eq_zero s).mpr hn)

/-- Nobody comes back to life. -/
theorem alive_of_acted (S : Setup) (c : Chance) (p : Packet) (s : Server) (id : UInt32)
    (player : Player) (hp : s.players.find? id = some player) (j : UInt32)
    (h : Alive (s.acted S c p id).players j) : Alive s.players j :=
  ((alive_acted S c p s id player hp j).mp h).1

/-- An action kills at most one player. -/
theorem living_acted (S : Setup) (c : Chance) (p : Packet) (s : Server) (id : UInt32)
    (player : Player) (hp : s.players.find? id = some player) :
    s.living ≤ (s.acted S c p id).living + 1 := by
  apply OrdMap.count_le_succ _ _ _ _ id
  intro j hj hmem
  rw [mem_living_iff] at hmem
  rw [mem_living_iff, alive_acted S c p s id player hp j]
  exact ⟨hmem, fun hn ↦ hj hn.1⟩

/-! ### The invariant of a game -/

/-- The turns handed out in the main game, oldest first. -/
def mainTurns (trace : List Effect) : List (SystemAddress × Server) :=
  (turns trace).filter fun t ↦ t.2.gameState = .gsMain

@[simp] theorem mainTurns_append (t u : List Effect) :
    mainTurns (t ++ u) = mainTurns t ++ mainTurns u := by
  simp [mainTurns]

/-- Whether a member function is `GameOver`. -/
def Routine.isOver : Routine → Bool
  | .gameOver _ => true
  | _ => false

/-- No turn is handed out after a game over. -/
def QuietAfterOver (trace : List Effect) : Prop :=
  trace.Pairwise fun e₁ e₂ ↦
    (∃ routine t, e₁.entry? = some (routine, t) ∧ routine.isOver = true) → e₂.turn? = none

/-- What the history says about the order of the main game's turns. -/
structure Rounds (s₀ : Server) (w : World) : Prop where
  chain : (mainTurns w.trace).IsChain
    (Passes (fun t ↦ t.2.currentPlayerTurn) (fun t ↦ Alive t.2.players))
  first : ∀ t, (mainTurns w.trace).head? = some t →
    t.2.currentPlayerTurn ∈ s₀.players ∧ ∀ id ∈ s₀.players, t.2.currentPlayerTurn ≤ id
  served : ∀ t ∈ mainTurns w.trace,
    t.2.playerAddresses.find? t.2.currentPlayerTurn = some t.1 ∧
      Alive t.2.players t.2.currentPlayerTurn

/-- The phases of a game, each with the turns outstanding. -/
inductive Phase (w : World) : List SystemAddress → Prop
  | choosing (systemAddress : SystemAddress)
      (hstate : w.server.gameState = .gsCharacterSelect)
      (haddr : w.server.playerAddresses.find? w.server.currentPlayerTurn = some systemAddress)
      (halive : ∀ id, id ∈ w.server.players → Alive w.server.players id)
      (hentries : (entries w.trace).map Prod.fst = [.startGame])
      (hmain : mainTurns w.trace = []) : Phase w [systemAddress]
  | fighting (systemAddress : SystemAddress) (hstate : w.server.gameState = .gsMain)
      (haddr : w.server.playerAddresses.find? w.server.currentPlayerTurn = some systemAddress)
      (hliving : 2 ≤ w.server.living)
      (hover : (entries w.trace).filter (fun e ↦ e.1.isOver) = [])
      (hstart : .startMainGame ∈ (entries w.trace).map Prod.fst)
      (last : SystemAddress × Server) (hlast : (mainTurns w.trace).getLast? = some last)
      (hplayers : last.2.players = w.server.players)
      (hcur : last.2.currentPlayerTurn = w.server.currentPlayerTurn) : Phase w [systemAddress]
  | ended (hstate : w.server.gameState = .gsGameOver) (id : UInt32) (t : Server)
      (hwinner : ∀ j, Alive w.server.players j ↔ j = id)
      (hover : (entries w.trace).filter (fun e ↦ e.1.isOver) = [(.gameOver id, t)])
      (hplayers : t.players = w.server.players)
      (hstart : .startMainGame ∈ (entries w.trace).map Prod.fst)
      (hsingle : w.server.players.size = 1 → (entries w.trace).map Prod.fst =
        [.startGame, .startMainGame, .nextTurn, .gameOver id]) : Phase w []

/-- What holds at every position of a game started on `s₀`. -/
structure GameOk (s₀ : Server) (pos : Position) : Prop where
  valid : pos.world.server.Valid
  started : pos.world.server.networkState = .nsGameStarted
  keys : pos.world.server.players.keys = s₀.players.keys
  phase : Phase pos.world pos.pending
  rounds : Rounds s₀ pos.world
  calls : ∀ t, (.nextTurn, t) ∈ entries pos.world.trace →
    t.currentPlayerTurn ∈ t.players ∧ ∃ id, Alive t.players id
  quiet : QuietAfterOver pos.world.trace
  running : pos.halt ≠ some .hang

theorem QuietAfterOver.append {trace es : List Effect} (h : QuietAfterOver trace)
    (hes : turns es = [] ∨ (entries (trace ++ es)).filter (fun e ↦ e.1.isOver) = []) :
    QuietAfterOver (trace ++ es) := by
  have hnew (e₁ e₂ : Effect) (h₁ : e₁ ∈ trace ++ es) (h₂ : e₂ ∈ es)
      (hover : ∃ routine t, e₁.entry? = some (routine, t) ∧ routine.isOver = true) :
      e₂.turn? = none := by
    rcases hes with hnone | hnone
    · exact List.filterMap_eq_nil_iff.mp hnone e₂ h₂
    · obtain ⟨routine, t, he, hr⟩ := hover
      have hmem : (routine, t) ∈ entries (trace ++ es) := List.mem_filterMap.mpr ⟨e₁, h₁, he⟩
      have := List.filter_eq_nil_iff.mp hnone _ hmem
      exact absurd hr this
  refine List.pairwise_append.mpr ⟨h, ?_, ?_⟩
  · exact List.pairwise_of_forall_mem_list fun e₁ h₁ e₂ h₂ ↦
      hnew e₁ e₂ (List.mem_append_right _ h₁) h₂
  · exact fun e₁ h₁ e₂ h₂ ↦ hnew e₁ e₂ (List.mem_append_left _ h₁) h₂

/-! ### The invariant holds -/

private theorem choosing_mainTurns (a : SystemAddress) (s : Server)
    (h : s.gameState = .gsCharacterSelect) (es : List Effect) (hes : turns es = [(a, s)]) :
    mainTurns es = [] := by
  simp [mainTurns, hes, h]

theorem GameOk.start {s₀ : Server} (hfresh : Fresh s₀) (r : Except Halt Unit) (w : World)
    (h : exec startGame ⟨s₀, []⟩ = (r, w)) :
    GameOk s₀ ⟨w, haltOf r, (turns w.trace).map Prod.fst⟩ := by
  obtain ⟨r', s', es', hstart, hdoes⟩ := startGame_does s₀
  obtain ⟨rfl, rfl, es, htrace, rfl⟩ := hdoes.of_exec h
  rw [List.nil_append] at htrace
  obtain ⟨first, a, hb, haddr, rfl, hs, hvalid, hturns⟩ :=
    hstart.of_registered hfresh.registered hfresh.nonempty
  have hentries := hstart.entries
  rw [entries_core, ← htrace] at hentries
  rw [turns_core, ← htrace] at hturns
  have hmain := choosing_mainTurns a _ rfl _ hturns
  have hpending : (turns w.trace).map Prod.fst = [a] := by simp [hturns]
  have halive (id : UInt32) (hid : id ∈ w.server.players) : Alive w.server.players id := by
    rw [hs, Server.started, OrdMap.mem_mapVal] at hid
    obtain ⟨player, hp⟩ := (OrdMap.mem_iff_find? _ _).mp hid
    rw [hs, alive_started]
    exact ⟨player, hp, (hfresh.fresh id player hp).2⟩
  refine ⟨hvalid, by rw [hs]; rfl, by simp [hs, Server.started], ?_, ?_, ?_, ?_, by simp [haltOf]⟩
  · rw [hpending]
    exact .choosing a (by rw [hs]; rfl) (by rw [hs]; exact haddr) halive (by simp [hentries]) hmain
  · exact ⟨by simp [hmain], by simp [hmain], by simp [hmain]⟩
  · simp [hentries]
  · have hnone : (entries ([] ++ w.trace)).filter (fun e ↦ e.1.isOver) = [] := by
      simp [hentries, Routine.isOver]
    exact QuietAfterOver.append (List.Pairwise.nil : QuietAfterOver []) (.inr hnone)

private theorem Phase.quiet {w : World} {pending : List SystemAddress} (h : Phase w pending)
    (n : UInt16) (es : List Effect) (hentries : entries es = []) (hmain : mainTurns es = []) :
    Phase ⟨{ w.server with totalConnections := n }, w.trace ++ es⟩ pending := by
  cases h with
  | choosing a hstate haddr halive hent hm =>
    exact .choosing a hstate haddr halive (by simp [hentries, hent]) (by simp [hmain, hm])
  | fighting a hstate haddr hliving hover hst last hlast hplayers hcur =>
    exact .fighting a hstate haddr hliving (by simp [hentries, hover])
      (by simpa [hentries] using hst) last (by simp [hmain, hlast]) hplayers hcur
  | ended hstate id t hwinner hover hplayers hst hsingle =>
    exact .ended hstate id t hwinner (by simp [hentries, hover]) hplayers
      (by simpa [hentries] using hst) (by simpa [hentries] using hsingle)

/-- A packet that changes nothing but the number of connections keeps everything. -/
theorem GameOk.other {s₀ : Server} {pos : Position} (h : GameOk s₀ pos) (r : Except Halt Unit)
    (s' : Server) (es : List Effect)
    (hs : s' = { pos.world.server with totalConnections := s'.totalConnections })
    (hes : core es = []) (hr : r ≠ .error .hang) :
    GameOk s₀ ⟨⟨s', pos.world.trace ++ es⟩, haltOf r,
      pos.pending ++ (turns es).map Prod.fst⟩ := by
  have hentries : entries es = [] := by rw [← entries_core, hes]; rfl
  have hturns : turns es = [] := by rw [← turns_core, hes]; rfl
  have hmain : mainTurns es = [] := by simp [mainTurns, hturns]
  have hpending : pos.pending ++ (turns es).map Prod.fst = pos.pending := by simp [hturns]
  have hrounds := h.rounds
  rw [hpending, hs]
  refine ⟨⟨h.valid.registered, h.valid.pointer⟩, h.started, h.keys,
    h.phase.quiet _ es hentries hmain, ?_, ?_, h.quiet.append (.inl hturns), ?_⟩
  · exact ⟨by simpa [hmain] using hrounds.chain, by simpa [hmain] using hrounds.first,
      by simpa [hmain] using hrounds.served⟩
  · simpa [hentries] using h.calls
  · cases r with
    | ok u => simp [haltOf]
    | error e => simpa [haltOf] using hr

private theorem filter_isOver_nil (pre : List (Routine × Server))
    (hpre : ∀ e ∈ pre, e.1 = .startMainGame) :
    pre.filter (fun e ↦ e.1.isOver) = [] := by
  rw [List.filter_eq_nil_iff]
  intro e he
  simp [hpre e he, Routine.isOver]

private theorem filter_isOver_startGame (es : List (Routine × Server))
    (h : es.map Prod.fst = [.startGame]) : es.filter (fun e ↦ e.1.isOver) = [] := by
  obtain ⟨⟨routine, t⟩, rfl, rfl⟩ := List.map_eq_singleton_iff.mp h
  rfl

/-- The next turn after the last one: the same tour goes on, among fewer living players. -/
private theorem Rounds.append {s₀ : Server} {w : World} (h : Rounds s₀ w) (s : Server)
    (a : SystemAddress) (id : UInt32) (es : List Effect) (s' : Server)
    (hkeys : s.players.keys = s₀.players.keys)
    (hnext : Next (Alive s.players) s.currentPlayerTurn id)
    (haddr : s.playerAddresses.find? id = some a) (hstate : s.gameState = .gsMain)
    (hturns : turns es = [(a, { s with currentPlayerTurn := id })])
    (hlast : ∀ last, (mainTurns w.trace).getLast? = some last →
      last.2.currentPlayerTurn = s.currentPlayerTurn ∧
        ∀ k, Alive s.players k → Alive last.2.players k)
    (hfirst : mainTurns w.trace = [] → (∀ k, k ∈ s.players → Alive s.players k) ∧
      s.players.next? s.currentPlayerTurn = none) : Rounds s₀ ⟨s', w.trace ++ es⟩ := by
  have hmain : mainTurns es = [(a, { s with currentPlayerTurn := id })] := by
    simp [mainTurns, hturns, hstate]
  refine ⟨?_, ?_, ?_⟩
  · rw [mainTurns_append, hmain, List.isChain_append]
    refine ⟨h.chain, List.isChain_singleton _, ?_⟩
    rintro last hmem _ ⟨rfl⟩
    obtain ⟨hcur, hshrink⟩ := hlast last hmem
    exact ⟨hshrink, by rw [hcur]; exact hnext⟩
  · rw [mainTurns_append, hmain]
    cases hm : mainTurns w.trace with
    | nil =>
      have hmem (k : UInt32) : k ∈ s.players ↔ k ∈ s₀.players := by
        rw [OrdMap.mem_def, hkeys, OrdMap.mem_def]
      rintro t ⟨rfl⟩
      refine ⟨(hmem id).mp hnext.living.mem, fun k hk ↦ ?_⟩
      obtain ⟨hall, hend⟩ := hfirst hm
      have hk' := (hmem k).mpr hk
      by_cases hne : k = id
      · exact hne ▸ le_refl _
      · have hbefore := hnext.first k (hall k hk') hne
        have hle := (OrdMap.next?_eq_none _ _).mp hend
        have hid := hle id hnext.living.mem
        have hkle := hle k hk'
        unfold Before at hbefore
        grind
    | cons t₀ rest =>
      rintro t ⟨rfl⟩
      exact h.first _ (by rw [hm]; rfl)
  · rw [mainTurns_append, hmain]
    intro t ht
    rcases List.mem_append.mp ht with ht | ht
    · exact h.served t ht
    · rw [List.mem_singleton.mp ht]
      exact ⟨haddr, hnext.living⟩

/-- What holds where `NextTurn` is called on `s` in the main game, after the history of `w`
and the calls `pre` made by the same packet. -/
structure MainTurn (s₀ : Server) (w : World) (pre : List (Routine × Server)) (s : Server) :
    Prop where
  rounds : Rounds s₀ w
  calls : ∀ t, (.nextTurn, t) ∈ entries w.trace →
    t.currentPlayerTurn ∈ t.players ∧ ∃ id, Alive t.players id
  quiet : QuietAfterOver w.trace
  notOver : (entries w.trace).filter (fun e ↦ e.1.isOver) = []
  calling : ∀ e ∈ pre, e.1 = .startMainGame
  entered : .startMainGame ∈ (entries w.trace ++ pre).map Prod.fst
  valid : s.Valid
  started : s.networkState = .nsGameStarted
  keys : s.players.keys = s₀.players.keys
  main : s.gameState = .gsMain
  living : s.living ≠ 0
  last : ∀ last, (mainTurns w.trace).getLast? = some last →
    last.2.currentPlayerTurn = s.currentPlayerTurn ∧
      ∀ k, Alive s.players k → Alive last.2.players k
  first : mainTurns w.trace = [] → (∀ k, k ∈ s.players → Alive s.players k) ∧
    s.players.next? s.currentPlayerTurn = none
  single : s.players.size = 1 → (entries w.trace ++ pre).map Prod.fst =
    [.startGame, .startMainGame]

section
variable {s₀ s : Server} {w : World} {pre : List (Routine × Server)} {es : List Effect}

/-- `NextTurn` is called where it ends. -/
theorem MainTurn.calls_append (h : MainTurn s₀ w pre s) (post : List (Routine × Server))
    (hentries : entries es = pre ++ (.nextTurn, s) :: post)
    (hpost : ∀ u, (.nextTurn, u) ∉ post) (u : Server)
    (hu : (.nextTurn, u) ∈ entries (w.trace ++ es)) :
    u.currentPlayerTurn ∈ u.players ∧ ∃ id, Alive u.players id := by
  rw [entries_append, List.mem_append, hentries, List.mem_append, List.mem_cons] at hu
  rcases hu with hu | hu | hu | hu
  · exact h.calls u hu
  · exact absurd (h.calling _ hu) (by simp)
  · obtain rfl := (Prod.mk.inj hu).2
    exact ⟨h.valid.pointer h.started, alive_of_living u h.living⟩
  · exact absurd hu (hpost u)

theorem MainTurn.entered_append (h : MainTurn s₀ w pre s) (post : List (Routine × Server))
    (hentries : entries es = pre ++ post) :
    .startMainGame ∈ (entries (w.trace ++ es)).map Prod.fst := by
  rw [entries_append, hentries, ← List.append_assoc, List.map_append]
  exact List.mem_append_left _ h.entered

theorem MainTurn.over_append (h : MainTurn s₀ w pre s) (post : List (Routine × Server))
    (hentries : entries es = pre ++ (.nextTurn, s) :: post) :
    (entries (w.trace ++ es)).filter (fun e ↦ e.1.isOver) =
      post.filter (fun e ↦ e.1.isOver) := by
  rw [entries_append, hentries, List.filter_append, List.filter_append, h.notOver,
    filter_isOver_nil pre h.calling]
  rfl

/-- The position after the last player alive got the turn. -/
theorem MainTurn.ends (h : MainTurn s₀ w pre s) (id : UInt32)
    (hnext : Next (Alive s.players) s.currentPlayerTurn id) (hone : s.living = 1)
    (hentries : entries es = pre ++
      [(.nextTurn, s), (.gameOver id, { s with currentPlayerTurn := id })])
    (hturns : turns es = []) :
    GameOk s₀ ⟨⟨{ s with currentPlayerTurn := id, gameState := .gsGameOver }, w.trace ++ es⟩,
      none, []⟩ := by
  have hmain : mainTurns es = [] := by simp [mainTurns, hturns]
  have hrounds := h.rounds
  have hwinner (j : UInt32) : Alive s.players j ↔ j = id := by
    obtain ⟨only, honly⟩ := (living_eq_one s).mp hone
    obtain rfl := (honly id).mp hnext.living
    exact honly j
  refine ⟨(h.valid.withPointer id hnext.living.mem).withGameState _, h.started, h.keys, ?_, ?_,
    h.calls_append _ hentries (by simp), h.quiet.append (.inl hturns), by simp⟩
  · refine .ended rfl id { s with currentPlayerTurn := id } hwinner ?_ rfl
      (h.entered_append _ hentries) ?_
    · rw [h.over_append _ hentries]
      rfl
    · intro hsize
      rw [entries_append, hentries, ← List.append_assoc, List.map_append, h.single hsize]
      rfl
  · exact ⟨by simpa [hmain] using hrounds.chain, by simpa [hmain] using hrounds.first,
      by simpa [hmain] using hrounds.served⟩

/-- The position after one of several got the turn. -/
theorem MainTurn.passes (h : MainTurn s₀ w pre s) (id : UInt32)
    (hnext : Next (Alive s.players) s.currentPlayerTurn id) (hmany : s.living ≠ 1)
    (a : SystemAddress) (haddr : s.playerAddresses.find? id = some a)
    (hentries : entries es = pre ++ [(.nextTurn, s)])
    (hturns : turns es = [(a, { s with currentPlayerTurn := id })]) :
    GameOk s₀ ⟨⟨{ s with currentPlayerTurn := id }, w.trace ++ es⟩, none, [a]⟩ := by
  have hmain : mainTurns es = [(a, { s with currentPlayerTurn := id })] := by
    simp [mainTurns, hturns, h.main]
  have hover := h.over_append _ hentries
  have hrounds := h.rounds.append s a id es { s with currentPlayerTurn := id } h.keys hnext
    haddr h.main hturns h.last h.first
  refine ⟨h.valid.withPointer id hnext.living.mem, h.started, h.keys, ?_, hrounds,
    h.calls_append _ hentries (by simp), h.quiet.append (.inr hover), by simp⟩
  refine .fighting a h.main haddr ?_ hover (h.entered_append _ hentries)
    (a, { s with currentPlayerTurn := id }) ?_ rfl rfl
  · have hliving := h.living
    show 2 ≤ s.living
    omega
  · rw [mainTurns_append, hmain, List.getLast?_concat]

/-- The position after a call of `NextTurn` in the main game. -/
theorem MainTurn.gameOk (h : MainTurn s₀ w pre s) {s' : Server} {r : Except Halt Unit}
    {es' : List Effect} (hturn : NextTurnDoes s r s' es')
    (hentries : entries es = pre ++ (.nextTurn, s) :: entries es')
    (hturns : turns es = turns es') :
    GameOk s₀ ⟨⟨s', w.trace ++ es⟩, haltOf r, (turns es).map Prod.fst⟩ := by
  obtain ⟨rfl, id, hnext, ⟨hone, rfl, hent, hno⟩ | ⟨hmany, rfl, a, haddr, hent, htu⟩⟩ :=
    hturn.of_alive h.valid (h.valid.pointer h.started) (alive_of_living s h.living)
  · rw [hent] at hentries
    rw [hno] at hturns
    rw [hturns]
    exact h.ends id hnext hone hentries hturns
  · rw [hent] at hentries
    rw [htu] at hturns
    rw [hturns]
    exact h.passes id hnext hmany a haddr hentries hturns

end

/-- A job chosen while jobs are chosen. -/
theorem GameOk.job {s₀ : Server} {w : World} {a : SystemAddress} (h : GameOk s₀ ⟨w, none, [a]⟩)
    (hstate : w.server.gameState = .gsCharacterSelect)
    (halive : ∀ id, id ∈ w.server.players → Alive w.server.players id)
    (hentries : (entries w.trace).map Prod.fst = [.startGame])
    (hmain : mainTurns w.trace = []) (p : Packet) (sender : UInt32) (r : Except Halt Unit)
    (s' : Server) (es : List Effect)
    (hchosen : ChosenDoes (w.server.withPlayer sender (·.chosen p)) r s' (core es)) :
    GameOk s₀ ⟨⟨s', w.trace ++ es⟩, haltOf r, (turns es).map Prod.fst⟩ := by
  have hv := h.valid.withPlayer sender (·.chosen p)
  have hcur := h.valid.pointer h.started
  have hall (id : UInt32) (hid : id ∈ (w.server.withPlayer sender (·.chosen p)).players) :
      Alive (w.server.withPlayer sender (·.chosen p)).players id :=
    (alive_chosen p w.server sender id).mpr (halive id (by simpa using hid))
  have hkeys : (w.server.withPlayer sender (·.chosen p)).players.keys = s₀.players.keys := by
    rw [← h.keys]
    exact OrdMap.keys_adjust _ _ _
  have hover := filter_isOver_startGame _ hentries
  have hent := entries_core es
  have htu := turns_core es
  generalize core es = effects at hchosen hent htu
  cases hchosen with
  | unset hunset => exact absurd (by simpa using hcur) hunset
  | passes _ id hnext a' haddr =>
    have hid := ((OrdMap.next?_eq_some _ _ id).mp hnext).1
    let s₁ : Server := { w.server.withPlayer sender (·.chosen p) with currentPlayerTurn := id }
    have hentries' : entries es = [] := by
      rw [← hent]
      simp
    have hturns : turns es = [(a', s₁)] := by
      rw [← htu]
      simp [s₁]
    have hmain' := choosing_mainTurns a' s₁ hstate es hturns
    refine ⟨hv.withPointer id hid, h.started, hkeys, ?_, ?_, ?_,
      h.quiet.append (.inr (by simpa [hentries'] using hover)), by simp [haltOf]⟩
    · rw [hturns]
      exact .choosing a' hstate haddr hall (by simpa [hentries'] using hentries)
        (by simp [hmain', hmain])
    · have hrounds := h.rounds
      exact ⟨by simpa [hmain'] using hrounds.chain, by simpa [hmain'] using hrounds.first,
        by simpa [hmain'] using hrounds.served⟩
    · simpa [hentries'] using h.calls
  | lost _ id hnext haddr =>
    exact absurd (hv.next_registered hnext) haddr
  | starts _ hnext r s' es' hturn =>
    have hsize := living_of_all_alive _ hall
    have hpos : (w.server.withPlayer sender (·.chosen p)).living ≠ 0 := by
      intro hzero
      exact (living_eq_zero _).mp hzero ⟨_, hall _ (by simpa using hcur)⟩
    have hmainTurn : MainTurn s₀ w [(.startMainGame, w.server.withPlayer sender (·.chosen p))]
        { w.server.withPlayer sender (·.chosen p) with gameState := .gsMain } :=
      { rounds := h.rounds
        calls := h.calls
        quiet := h.quiet
        notOver := hover
        calling := by simp
        entered := by simp
        valid := hv.withGameState .gsMain
        started := h.started
        keys := hkeys
        main := rfl
        living := hpos
        last := by simp [hmain]
        first := fun _ ↦ ⟨hall, hnext⟩
        single := by simp [hentries] }
    exact hmainTurn.gameOk hturn (by simpa using hent.symm) (by simpa using htu.symm)

/-- An action taken in the main game. -/
theorem GameOk.action {S : Setup} {s₀ : Server} {w : World} {a : SystemAddress}
    (h : GameOk s₀ ⟨w, none, [a]⟩) (hstate : w.server.gameState = .gsMain)
    (hliving : 2 ≤ w.server.living)
    (hover : (entries w.trace).filter (fun e ↦ e.1.isOver) = [])
    (hstart : .startMainGame ∈ (entries w.trace).map Prod.fst)
    (last : SystemAddress × Server) (hlast : (mainTurns w.trace).getLast? = some last)
    (hplayers : last.2.players = w.server.players)
    (hcur : last.2.currentPlayerTurn = w.server.currentPlayerTurn) (c : Chance) (p : Packet)
    (id : UInt32) (player : Player) (hp : w.server.players.find? id = some player)
    (r : Except Halt Unit) (s' : Server) (es es' : List Effect)
    (hturn : NextTurnDoes (w.server.acted S c p id) r s' es')
    (hcore : core es = actionReport S c p w.server id player ++
      ⟨.enter .nextTurn, w.server.acted S c p id⟩ :: es') :
    GameOk s₀ ⟨⟨s', w.trace ++ es⟩, haltOf r, (turns es).map Prod.fst⟩ := by
  have hacted := living_acted S c p w.server id player hp
  have hstarted : (w.server.acted S c p id).networkState = .nsGameStarted := by
    rw [Server.acted_networkState, h.started]
  have hkeys : (w.server.acted S c p id).players.keys = s₀.players.keys := by
    rw [Server.keys_acted_players, h.keys]
  have hmain : (w.server.acted S c p id).gameState = .gsMain := by
    rw [Server.acted_gameState, hstate]
  have hsize : w.server.living ≤ s₀.players.size := by
    rw [← OrdMap.length_keys, ← h.keys, OrdMap.length_keys]
    exact List.countP_le_length
  have hmainTurn : MainTurn s₀ w [] (w.server.acted S c p id) :=
    { rounds := h.rounds
      calls := h.calls
      quiet := h.quiet
      notOver := hover
      calling := by simp
      entered := by simpa using hstart
      valid := h.valid.acted S c p id
      started := hstarted
      keys := hkeys
      main := hmain
      living := by omega
      last := fun last' hlast' ↦ by
        obtain rfl := Option.some.inj (hlast.symm.trans hlast')
        refine ⟨by rw [Server.acted_currentPlayerTurn, hcur], ?_⟩
        intro k hk
        rw [hplayers]
        exact alive_of_acted S c p w.server id player hp k hk
      first := fun hnone ↦ by simp [hnone] at hlast
      single := fun hone ↦ by
        rw [← OrdMap.length_keys, hkeys, OrdMap.length_keys] at hone
        omega }
  apply hmainTurn.gameOk hturn
  · rw [← entries_core, hcore]
    simp
  · rw [← turns_core, hcore]
    simp

/-- Every position of a game is as described. -/
theorem game_ok {S : Setup} {s₀ : Server} (hfresh : Fresh s₀) {pos : Position}
    (h : Game S s₀ pos) : GameOk s₀ pos := by
  induction h with
  | start r w h => exact GameOk.start hfresh r w h
  | step pos hpos hrunning e pending hturn r s' es hexec ih =>
    have hhandled := handled_of_step S e.chance e.packet pos.world r s' es hexec
    cases hturn with
    | other hk =>
      obtain ⟨hs, hcore, hr⟩ := hhandled.of_other hk
      exact ih.other r s' es hs hcore hr
    | answer a hpending hrecipient k hk hkind htarget =>
      have hsender := (ih.valid.registered _).mpr
        ((OrdMap.mem_iff_find? _ _).mpr ⟨a, hrecipient⟩)
      obtain ⟨w, halt, pending⟩ := pos
      obtain rfl : halt = none := hrunning
      have hphase := ih.phase
      cases hphase with
      | choosing a' hstate haddr halive hentries hmain =>
        obtain rfl := List.mem_singleton.mp hpending
        rw [hstate] at hkind
        obtain rfl := Option.some.inj hkind
        rw [List.erase_cons_head, List.nil_append]
        exact ih.job hstate halive hentries hmain e.packet _ r s' es
          (hhandled.of_job_chosen hk hsender)
      | fighting a' hstate haddr hliving hover hstart last hlast hplayers hcur =>
        obtain rfl := List.mem_singleton.mp hpending
        rw [hstate] at hkind
        obtain rfl := Option.some.inj hkind
        rw [List.erase_cons_head, List.nil_append]
        rcases hhandled.of_action_taken hk hsender with
          ⟨hnone, _⟩ | ⟨id, player, es', _, hp, hturn, hcore⟩
        · exact absurd hnone (htarget rfl)
        · exact ih.action hstate hliving hover hstart last hlast hplayers hcur e.chance e.packet
            id player hp r s' es es' hturn hcore
      | ended hstate => simp at hpending

theorem GameOk.size {s₀ : Server} {pos : Position} (h : GameOk s₀ pos) :
    pos.world.server.players.size = s₀.players.size := by
  rw [← OrdMap.length_keys, h.keys, OrdMap.length_keys]

/-! ### A concrete game -/

/-- The position after one more packet. -/
def Position.after (S : Setup) (pos : Position) (e : Event) (pending : List SystemAddress) :
    Position :=
  let out := exec (packetHandler S e.chance e.packet) pos.world
  ⟨out.2, haltOf out.1,
    pending ++ (turns (out.2.trace.drop pos.world.trace.length)).map Prod.fst⟩

theorem Game.after {S : Setup} {s₀ : Server} {pos : Position} (h : Game S s₀ pos)
    (hrunning : pos.halt = none) (e : Event) (pending : List SystemAddress)
    (hturn : InTurn S pos e pending) : Game S s₀ (pos.after S e pending) := by
  rcases hexec : exec (packetHandler S e.chance e.packet) pos.world with ⟨r, ⟨s', trace⟩⟩
  obtain ⟨es, htrace, _⟩ := handled_of_exec S e.chance e.packet pos.world _ r hexec
  obtain rfl : trace = pos.world.trace ++ es := htrace
  have := Game.step pos h hrunning e pending hturn r s' es hexec
  rwa [Position.after, hexec, List.drop_left]

/-- The packet answers the turn sent to an address. -/
def Answers (S : Setup) (pos : Position) (e : Event) (systemAddress : SystemAddress) : Prop :=
  pos.halt = none ∧ systemAddress ∈ pos.pending ∧
    pos.world.server.playerAddresses.find? (S.id e.packet) = some systemAddress ∧
    e.packet.kind ≠ none ∧ answerKind pos.world.server.gameState = e.packet.kind ∧
    target? S e.chance e.packet pos.world.server ≠ none

instance (S : Setup) (pos : Position) (e : Event) (systemAddress : SystemAddress) :
    Decidable (Answers S pos e systemAddress) :=
  inferInstanceAs (Decidable (_ ∧ _))

theorem Game.answer {S : Setup} {s₀ : Server} {pos : Position} (h : Game S s₀ pos) (e : Event)
    (systemAddress : SystemAddress) (ha : Answers S pos e systemAddress) :
    Game S s₀ (pos.after S e (pos.pending.erase systemAddress)) := by
  obtain ⟨hrunning, hpending, hrecipient, hkind, hanswer, htarget⟩ := ha
  obtain ⟨k, hk⟩ := Option.ne_none_iff_exists'.mp hkind
  exact h.after hrunning e _ (.answer systemAddress hpending hrecipient k hk
    (hanswer.trans hk) fun _ ↦ htarget)

/-- Two players without names, about to play. -/
def twoSeated : Server :=
  (outcome (.plain 2) (everybody [1, 2] DefaultMessageId.idNewIncomingConnection.byte [] ++
    everybody [1, 2] RRPGId.cIntro.byte [])).2.server

theorem twoSeated_fresh : Fresh twoSeated where
  registered id := by
    have : twoSeated.players.keys = twoSeated.playerAddresses.keys := by decide +kernel
    rw [OrdMap.mem_def, this, OrdMap.mem_def]
  nonempty := ⟨1, by decide +kernel⟩
  fresh id player hp := by
    have : twoSeated.players.all
        (fun player ↦ player.health = 100 ∧ player.dead = false) = true := by
      decide +kernel
    simpa using (OrdMap.all_eq_true _ _).mp this id player hp

/-- The first position of their game. -/
def duelStart : Position :=
  ⟨(exec startGame ⟨twoSeated, []⟩).2, haltOf (exec startGame ⟨twoSeated, []⟩).1,
    (turns (exec startGame ⟨twoSeated, []⟩).2.trace).map Prod.fst⟩

/-- A player's answer to its turn. -/
def Position.answered (pos : Position) (client : UInt64) (k : RRPGId) (payload : Bytes) :
    Position :=
  pos.after (.plain 2) (clientEvent client k.byte payload)
    (pos.pending.erase (clientEvent client k.byte payload).packet.systemAddress)

/-- Both choose a job, then each strikes the first player once. -/
def duel : Position :=
  (((duelStart.answered 1 .cJobChosen [0]).answered 2 .cJobChosen [0]).answered 1
    .cActionTaken [2]).answered 2 .cActionTaken [2]

theorem duel_game : Game (.plain 2) twoSeated duel := by
  have hstart : Game (.plain 2) twoSeated duelStart := .start _ _ rfl
  have h₁ := hstart.answer (clientEvent 1 RRPGId.cJobChosen.byte [0]) ⟨1, 60000⟩
    (by decide +kernel)
  have h₂ := h₁.answer (clientEvent 2 RRPGId.cJobChosen.byte [0]) ⟨2, 60000⟩
    (by decide +kernel)
  have h₃ := h₂.answer (clientEvent 1 RRPGId.cActionTaken.byte [2]) ⟨1, 60000⟩
    (by decide +kernel)
  exact h₃.answer (clientEvent 2 RRPGId.cActionTaken.byte [2]) ⟨2, 60000⟩ (by decide +kernel)

/-! ### What follows for every game -/

private theorem not_over_of_filter {es : List (Routine × Server)}
    (h : es.filter (fun e ↦ e.1.isOver) = []) (id : UInt32) (t : Server) :
    (.gameOver id, t) ∉ es := by
  intro hmem
  have := List.filter_eq_nil_iff.mp h _ hmem
  simp [Routine.isOver] at this

private theorem over_unique {es : List (Routine × Server)} {id id' : UInt32} {t t' : Server}
    (h : es.filter (fun e ↦ e.1.isOver) = [(.gameOver id, t)]) (ht : (.gameOver id', t') ∈ es) :
    id' = id ∧ t' = t := by
  have hmem : (.gameOver id', t') ∈ es.filter (fun e ↦ e.1.isOver) :=
    List.mem_filter.mpr ⟨ht, rfl⟩
  simpa [h] using hmem

section
variable {w : World} {pending : List SystemAddress} (h : Phase w pending)
include h

/-- While a turn is outstanding two players live, if there are two. -/
theorem Phase.two_alive (hsize : 2 ≤ w.server.players.size) (hne : pending ≠ []) :
    2 ≤ w.server.living := by
  cases h with
  | choosing a hstate haddr halive hentries hmain =>
    rwa [living_of_all_alive w.server halive]
  | fighting a hstate haddr hliving => exact hliving
  | ended hstate => exact absurd rfl hne

theorem Phase.over_le_one :
    ((entries w.trace).filter (fun e ↦ e.1.isOver)).length ≤ 1 := by
  cases h with
  | choosing a hstate haddr halive hentries hmain =>
    simp [filter_isOver_startGame _ hentries]
  | fighting a hstate haddr hliving hover => simp [hover]
  | ended hstate id t hwinner hover => simp [hover]

/-- Who has won is the last one alive, and stays it. -/
theorem Phase.winner (id : UInt32) (t : Server)
    (ht : (.gameOver id, t) ∈ entries w.trace) :
    (∀ j, Alive t.players j ↔ j = id) ∧ ∀ j, Alive w.server.players j ↔ j = id := by
  cases h with
  | choosing a hstate haddr halive hentries hmain =>
    exact absurd ht (not_over_of_filter (filter_isOver_startGame _ hentries) id t)
  | fighting a hstate haddr hliving hover => exact absurd ht (not_over_of_filter hover id t)
  | ended hstate id' t' hwinner hover hplayers =>
    obtain ⟨rfl, rfl⟩ := over_unique hover ht
    exact ⟨hplayers ▸ hwinner, hwinner⟩

/-- With two players or more, the game is over when one is left. -/
theorem Phase.over_iff_living (hsize : 2 ≤ w.server.players.size) :
    (∃ id t, (.gameOver id, t) ∈ entries w.trace) ↔ w.server.living = 1 := by
  cases h with
  | choosing a hstate haddr halive hentries hmain =>
    have hnone := not_over_of_filter (filter_isOver_startGame _ hentries)
    have hliving := living_of_all_alive w.server halive
    simp only [hnone, exists_false, false_iff]
    omega
  | fighting a hstate haddr hliving hover =>
    simp only [not_over_of_filter hover, exists_false, false_iff]
    omega
  | ended hstate id t hwinner hover =>
    have hmem := List.mem_filter.mp (hover ▸ List.mem_singleton_self (Routine.gameOver id, t))
    exact ⟨fun _ ↦ (living_eq_one _).mpr ⟨id, hwinner⟩, fun _ ↦ ⟨id, t, hmem.1⟩⟩

/-- A single player has won as soon as the main game starts. -/
theorem Phase.single (hsize : w.server.players.size = 1) :
    ((∃ id t, (.gameOver id, t) ∈ entries w.trace) ↔
      ∃ t, (.startMainGame, t) ∈ entries w.trace) ∧
    ∀ id t, (.gameOver id, t) ∈ entries w.trace →
      (entries w.trace).map Prod.fst =
        [.startGame, .startMainGame, .nextTurn, .gameOver id] := by
  cases h with
  | choosing a hstate haddr halive hentries hmain =>
    have hnone := not_over_of_filter (filter_isOver_startGame _ hentries)
    refine ⟨⟨fun ⟨id, t, ht⟩ ↦ absurd ht (hnone id t), ?_⟩,
      fun id t ht ↦ absurd ht (hnone id t)⟩
    rintro ⟨t, ht⟩
    have := List.mem_map_of_mem (f := Prod.fst) ht
    simp [hentries] at this
  | fighting a hstate haddr hliving hover =>
    have hle : w.server.living ≤ w.server.players.size := List.countP_le_length
    omega
  | ended hstate id t hwinner hover hplayers hstart hsingle =>
    have hmem := List.mem_filter.mp (hover ▸ List.mem_singleton_self (Routine.gameOver id, t))
    obtain ⟨⟨_, u⟩, hu, rfl⟩ := List.mem_map.mp hstart
    refine ⟨⟨fun _ ↦ ⟨u, hu⟩, fun _ ↦ ⟨id, t, hmem.1⟩⟩, ?_⟩
    intro id' t' ht
    obtain ⟨rfl, _⟩ := over_unique hover ht
    exact hsingle hsize

end

/-- No game hangs. While a turn is outstanding two players live, if there were two. The game
is over at most once, for the last player alive, from the step on that leaves one player
alive, or for a single player from the start of the main game on; no turn follows. -/
theorem game_outcome (S : Setup) (s₀ : Server) (hfresh : Fresh s₀) (pos : Position)
    (h : Game S s₀ pos) :
    pos.halt ≠ some .hang ∧
    (∀ t, (.nextTurn, t) ∈ entries pos.world.trace →
      Terminates (endOrDead t.players) (advance t.players)
        (t.players.next? t.currentPlayerTurn)) ∧
    (2 ≤ s₀.players.size → pos.pending ≠ [] → 2 ≤ pos.world.server.living) ∧
    ((entries pos.world.trace).filter (fun e ↦ e.1.isOver)).length ≤ 1 ∧
    (∀ id t, (.gameOver id, t) ∈ entries pos.world.trace →
      (∀ j, Alive t.players j ↔ j = id) ∧ ∀ j, Alive pos.world.server.players j ↔ j = id) ∧
    (2 ≤ s₀.players.size →
      ((∃ id t, (.gameOver id, t) ∈ entries pos.world.trace) ↔ pos.world.server.living = 1)) ∧
    (s₀.players.size = 1 →
      ((∃ id t, (.gameOver id, t) ∈ entries pos.world.trace) ↔
        ∃ t, (.startMainGame, t) ∈ entries pos.world.trace) ∧
      ∀ id t, (.gameOver id, t) ∈ entries pos.world.trace →
        (entries pos.world.trace).map Prod.fst =
          [.startGame, .startMainGame, .nextTurn, .gameOver id]) ∧
    QuietAfterOver pos.world.trace := by
  have hok := game_ok hfresh h
  rw [← hok.size]
  refine ⟨hok.running, ?_, hok.phase.two_alive, hok.phase.over_le_one, hok.phase.winner,
    hok.phase.over_iff_living, hok.phase.single, hok.quiet⟩
  intro t ht
  obtain ⟨hcur, halive⟩ := hok.calls t ht
  exact (walk_terminates_iff t.players _ hcur).mpr halive

/-- Both players of the duel live while the next turn is outstanding. -/
theorem duel_outcome : duel.pending = [⟨1, 60000⟩] ∧ 2 ≤ duel.world.server.living :=
  ⟨by decide +kernel, (game_outcome (.plain 2) twoSeated twoSeated_fresh duel duel_game).2.2.1
    (by decide +kernel) (by decide +kernel)⟩

/-- The main game's turns go round: the first one goes to the smallest id, none to a dead
player, and between two consecutive turns of one player everybody else alive at the second
has exactly one. -/
theorem game_rotation (S : Setup) (s₀ : Server) (hfresh : Fresh s₀) (pos : Position)
    (h : Game S s₀ pos) :
    (∀ t, (mainTurns pos.world.trace).head? = some t →
      t.2.currentPlayerTurn ∈ s₀.players ∧
        ∀ id ∈ s₀.players, t.2.currentPlayerTurn ≤ id) ∧
    (∀ t ∈ mainTurns pos.world.trace,
      t.2.playerAddresses.find? t.2.currentPlayerTurn = some t.1 ∧
        Alive t.2.players t.2.currentPlayerTurn) ∧
    ∀ pre x seg y post, mainTurns pos.world.trace = pre ++ x :: (seg ++ y :: post) →
      x.2.currentPlayerTurn = y.2.currentPlayerTurn →
      (∀ z ∈ seg, z.2.currentPlayerTurn ≠ x.2.currentPlayerTurn) →
      ∀ k, k ≠ x.2.currentPlayerTurn → Alive y.2.players k →
        (seg.map fun z ↦ z.2.currentPlayerTurn).count k = 1 := by
  have hok := game_ok hfresh h
  refine ⟨hok.rounds.first, hok.rounds.served, ?_⟩
  intro pre x seg y post hsplit hxy hseg k hk halive
  have hsub : x :: (seg ++ [y]) <:+: mainTurns pos.world.trace :=
    ⟨pre, post, by simp [hsplit]⟩
  have hchain := List.IsChain.infix hok.rounds.chain hsub
  exact count_between _ _ seg x y hchain hxy hseg k hk halive

/-- The turns of the duel go round. -/
theorem duel_rotation :
    (mainTurns duel.world.trace).map (fun t ↦ t.2.currentPlayerTurn) = [1, 2, 1] ∧
    ∀ t ∈ mainTurns duel.world.trace, Alive t.2.players t.2.currentPlayerTurn :=
  ⟨by decide +kernel, fun t ht ↦
    ((game_rotation (.plain 2) twoSeated twoSeated_fresh duel duel_game).2.1 t ht).2⟩

end RRPG
