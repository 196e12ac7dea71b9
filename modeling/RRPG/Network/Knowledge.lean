import RRPG.Network.Orderly

/-!
# What a client knows of the game

The phase and the table of a client that has heard everything said to it so far are the
server's: a packet in season takes both along.
-/

open RRPG.Base RRPG.Base.Handler

namespace RRPG

/-! ### Rows -/

/-- What both sides keep of a player: the name, the health, the class and the dead flag. -/
abbrev Row : Type := Bytes × Int × UInt8 × Bool

def Player.row (player : Player) : Row :=
  (player.name.bytes, player.health, player.job, player.dead)

def LocalPlayer.row (player : LocalPlayer) : Row :=
  (player.name, player.health, player.job, player.dead)

/-- The server's table. -/
def Server.rows (s : Server) : List Row := s.players.entries.map fun e ↦ e.2.row

/-- A row after a report of a health. -/
def Row.updated (name : Bytes) (newHp : Int) (row : Row) : Row :=
  if row.1 = name then (row.1, newHp, row.2.2.1, row.2.2.2 || decide (newHp ≤ 0)) else row

theorem LocalPlayer.row_updated (name : Bytes) (newHp : Int) (player : LocalPlayer) :
    (player.updated name newHp).row = Row.updated name newHp player.row := by
  unfold LocalPlayer.updated Row.updated LocalPlayer.row
  dsimp only
  split
  · rfl
  · rfl

/-- A player's row is in the table. -/
theorem Server.mem_rows (s : Server) (row : Row) :
    row ∈ s.rows ↔ ∃ id player, s.players.find? id = some player ∧ player.row = row := by
  simp only [rows, List.mem_map, Prod.exists, OrdMap.find?_eq_some]

theorem Server.rows_mapVal {s s' : Server} (g : UInt32 → Player → Player)
    (hg : ∀ id player, (g id player).row = player.row)
    (hplayers : s'.players = s.players.mapVal g) : s'.rows = s.rows := by
  rw [rows, hplayers, OrdMap.mapVal, List.map_map]
  exact List.map_congr_left fun e _ ↦ hg e.1 e.2

/-- A strike is what its report says, to the rows of that name. -/
theorem Server.rows_struck {s s' : Server} (hd : DistinctNames s) (id : UInt32) (player : Player)
    (diff : Int) (hp : s.players.find? id = some player)
    (hplayers : s'.players = s.players.adjust id (·.struck diff)) :
    s'.rows = s.rows.map (Row.updated player.name.bytes (player.struck diff).health) := by
  rw [rows, rows, hplayers, OrdMap.adjust, OrdMap.mapVal, List.map_map, List.map_map]
  refine List.map_congr_left fun e he ↦ ?_
  obtain ⟨j, q⟩ := e
  have hq := (OrdMap.find?_eq_some _ _ _).mpr he
  show (if j = id then q.struck diff else q).row = Row.updated _ _ q.row
  unfold Row.updated
  by_cases hj : j = id
  · subst hj
    obtain rfl := Option.some.inj (hp.symm.trans hq)
    have hname : player.row.1 = player.name.bytes := rfl
    rw [if_pos rfl, if_pos hname]
    rfl
  · have hname : q.row.1 ≠ player.name.bytes := fun hname ↦
      hj (hd j id q player hq hp (CString.ext hname))
    rw [if_neg hj, if_neg hname]

/-- The names stay. -/
theorem Server.names_struck {s s' : Server} (id : UInt32) (diff : Int)
    (hplayers : s'.players = s.players.adjust id (·.struck diff)) :
    s'.rows.map Prod.fst = s.rows.map Prod.fst := by
  rw [rows, rows, hplayers, OrdMap.adjust, OrdMap.mapVal, List.map_map, List.map_map, List.map_map]
  refine List.map_congr_left fun e _ ↦ ?_
  show (if e.1 = id then e.2.struck diff else e.2).row.1 = e.2.row.1
  split <;> rfl

/-! ### Hearing -/

namespace GameClient

/-- What matters of a handler's effects are those of the game proper. -/
theorem told_outbox_core (t : GameClient) (a : SystemAddress) (es : List Effect) :
    t.told (outbox a es) = t.told (outbox a (core es)) := by
  induction es generalizing t with
  | nil => rfl
  | cons e es ih =>
    rw [outbox_cons, told_append, core_cons]
    split
    · rw [outbox_cons, told_append, ih]
    · next hcore =>
      rw [← ih]
      congr 1
      obtain ⟨act, s⟩ := e
      cases act with
      | send dest message =>
        cases message with
        | text | replyPlayerListRequest | replyPlayerStatsRequest =>
          cases dest with
          | all => rfl
          | system b => by_cases hb : b = a <;> simp [Effect.to?, hb, heard]
        | _ => simp at hcore
      | memcpy => rfl
      | _ => simp at hcore

/-- Messages that are no news leave what a client knows of others alone. -/
theorem told_of_no_news (t : GameClient) (messages : List (Message × Server))
    (h : ∀ m ∈ messages, m.1.isNews = false) : Alike (t.told messages) t := by
  induction messages generalizing t with
  | nil => exact .refl t
  | cons m messages ih =>
    have hrest := ih (t.heard m.1) fun m' hm' ↦ h m' (List.mem_cons_of_mem m hm')
    refine hrest.trans ?_
    have hm := h m List.mem_cons_self
    cases hmessage : m.1 with
    | gameStarted | updateGameState | updatePlayerHp => simp [hmessage, Message.isNews] at hm
    | _ => exact ⟨rfl, rfl, rfl, rfl⟩

end GameClient

/-! ### Knowing -/

/-- The main game has not begun. -/
def Server.Unplayed (s : Server) : Prop :=
  s.networkState ≠ .nsGameStarted ∨ s.gameState = .gsCharacterSelect

/-- What a client knows is as the server has it: the phase of a started game, and from the main
game on the players, each with its row where no two share a name. -/
structure Knows (t : GameClient) (s : Server) : Prop where
  started : s.networkState = .nsGameStarted →
    t.networkState = .nsGameStarted ∧ t.gameState = s.gameState.byte
  unplayed : s.Unplayed → t.players = []
  names : ¬ s.Unplayed → t.players.map LocalPlayer.name = s.rows.map Prod.fst
  rows : ¬ s.Unplayed → DistinctNames s → t.players.map LocalPlayer.row = s.rows

/-- Everybody is as registered. -/
def Server.AllFresh (s : Server) : Prop := ∀ id player, s.players.find? id = some player →
  player.health = 100 ∧ player.dead = false

section
variable {t u : GameClient} {S : Setup} {c : Chance} {p : Packet} {s s' : Server}
  {r : Except Halt Unit} {es : List Effect}

theorem Knows.alike (h : Knows t s) (halike : GameClient.Alike u t) : Knows u s where
  started hs :=
    ⟨halike.networkState.trans (h.started hs).1, halike.gameState.trans (h.started hs).2⟩
  unplayed hs := halike.players.trans (h.unplayed hs)
  names hs := halike.players ▸ h.names hs
  rows hs hd := halike.players ▸ h.rows hs hd

/-- Changes of readiness or of the pointer go unnoticed. -/
theorem Knows.congr (h : Knows t s) (hnetwork : s'.networkState = s.networkState)
    (hstate : s'.gameState = s.gameState) (g : UInt32 → Player → Player)
    (hg : ∀ id player, (g id player).row = player.row)
    (hplayers : s'.players = s.players.mapVal g) : Knows t s' := by
  have hrows := Server.rows_mapVal g hg hplayers
  have hunplayed : s'.Unplayed ↔ s.Unplayed := by
    unfold Server.Unplayed
    rw [hnetwork, hstate]
  have hdistinct (hd : DistinctNames s') : DistinctNames s := by
    refine SameNames.distinct (fun id ↦ ?_) hd
    rw [hplayers, OrdMap.find?_mapVal, Option.map_map]
    congr 1
    funext player
    exact CString.ext (congrArg Prod.fst (hg id player))
  refine ⟨fun hs ↦ ?_, fun hs ↦ h.unplayed (hunplayed.mp hs), fun hs ↦ ?_, fun hs hd ↦ ?_⟩
  · rw [hstate]
    exact h.started (hnetwork ▸ hs)
  · rw [hrows]
    exact h.names fun hu ↦ hs (hunplayed.mpr hu)
  · rw [hrows]
    exact h.rows (fun hu ↦ hs (hunplayed.mpr hu)) (hdistinct hd)

theorem Knows.same (h : Knows t s) (hnetwork : s'.networkState = s.networkState)
    (hstate : s'.gameState = s.gameState) (hplayers : s'.players = s.players) : Knows t s' :=
  h.congr hnetwork hstate (fun _ q ↦ q) (fun _ _ ↦ rfl) (by rw [hplayers, OrdMap.mapVal_self])

/-- A turn goes unnoticed too. -/
theorem Knows.outbox_turn (h : Knows t s) (a b : SystemAddress) (u : Server) :
    Knows (t.told (outbox a [⟨.send (.system b) .takeTurn, u⟩])) s := by
  rw [outbox_cons]
  by_cases hb : b = a
  · simp only [Effect.to?, hb, if_true]
    exact h.alike ⟨rfl, rfl, rfl, rfl⟩
  · simp only [Effect.to?, hb, if_false]
    exact h

/-- The end of the game is told. -/
theorem NextTurnDoes.knows (h : NextTurnDoes s r s' es) (hknows : Knows t s)
    (hstarted : s.networkState = .nsGameStarted) (hmain : s.gameState = .gsMain)
    (a : SystemAddress) : Knows (t.told (outbox a es)) s' := by
  have hplayed : ¬ s.Unplayed := by simp [Server.Unplayed, hstarted, hmain]
  cases h with
  | unset | hangs | lost => exact hknows.same rfl rfl rfl
  | passes hcur id hnext hmany b haddr =>
    have hknows : Knows t { s with currentPlayerTurn := id } :=
      hknows.same rfl rfl rfl
    exact hknows.outbox_turn a b _
  | ends hcur id hnext hone =>
    refine ⟨fun hs ↦ ⟨(hknows.started hstarted).1, rfl⟩, ?_, fun _ ↦ ?_, fun _ hd ↦ ?_⟩
    · simp [Server.Unplayed, hstarted]
    · exact hknows.names hplayed
    · exact hknows.rows hplayed hd

/-- A choice is not told, but the table of all of them is. -/
theorem ChosenDoes.knows (h : ChosenDoes s r s' es) (hknows : Knows t s)
    (hstarted : s.networkState = .nsGameStarted) (hselect : s.gameState = .gsCharacterSelect)
    (hfresh : s.AllFresh) (a : SystemAddress) : Knows (t.told (outbox a es)) s' := by
  cases h with
  | unset | lost => exact hknows.same rfl rfl rfl
  | passes hcur id hnext b haddr =>
    have hknows : Knows t { s with currentPlayerTurn := id } :=
      hknows.same rfl rfl rfl
    exact hknows.outbox_turn a b _
  | starts hcur hnext r s' es hturn =>
    have hnone : t.players = [] := hknows.unplayed (.inr hselect)
    obtain ⟨job, hheard⟩ := GameClient.foldl_enter { t with gameState := GameState.gsMain.byte }
      s.records
    have hrow : (s.records.map LocalPlayer.ofRecord).map LocalPlayer.row = s.rows := by
      rw [Server.records, List.map_map, List.map_map]
      refine List.map_congr_left fun e he ↦ ?_
      have hdead := (hfresh e.1 e.2 ((OrdMap.find?_eq_some _ _ _).mpr he)).2
      simp [LocalPlayer.ofRecord, LocalPlayer.row, Player.row, hdead]
    have htable : Knows (t.heard (.updateGameState .gsMain (some s.records)))
        { s with gameState := .gsMain } := by
      rw [GameClient.heard, Option.getD_some, hheard, hnone, List.nil_append]
      refine ⟨fun _ ↦ ⟨(hknows.started hstarted).1, rfl⟩, ?_, fun _ ↦ ?_, fun _ _ ↦ hrow⟩
      · simp [Server.Unplayed, hstarted]
      · have := congrArg (List.map Prod.fst) hrow
        rwa [List.map_map] at this
    exact hturn.knows htable hstarted rfl a

/-- The health an action leaves is told. -/
theorem knows_acted (hknows : Knows t s) (hplayed : ¬ s.Unplayed) (id : UInt32)
    (player : Player) (hp : s.players.find? id = some player) (a : SystemAddress) :
    Knows (t.told (outbox a (actionReport S c p s id player))) (s.acted S c p id) := by
  unfold actionReport Server.acted
  cases hdiff : diff? S c p with
  | none => exact hknows
  | some diff =>
    set newHp := (player.struck diff).health
    have hplayed' : ¬ (s.withPlayer id (·.struck diff)).Unplayed := hplayed
    have hrow : ((t.players.map (·.updated player.name.bytes newHp)).map LocalPlayer.row) =
        (t.players.map LocalPlayer.row).map (Row.updated player.name.bytes newHp) := by
      rw [List.map_map, List.map_map]
      exact List.map_congr_left fun q _ ↦ q.row_updated _ _
    refine ⟨hknows.started, fun hu ↦ absurd hu hplayed', fun _ ↦ ?_, fun _ hd ↦ ?_⟩
    · rw [Server.names_struck id diff rfl, ← hknows.names hplayed]
      show (t.players.map (·.updated player.name.bytes newHp)).map LocalPlayer.name = _
      rw [List.map_map]
      exact List.map_congr_left fun q _ ↦ GameClient.name_updated _ _ q
    · have hd : DistinctNames s := SameNames.distinct (fun j ↦ by
        rw [Server.withPlayer_players, OrdMap.find?_adjust]
        split
        · rw [Option.map_map]
          rfl
        · rfl) hd
      rw [Server.rows_struck hd id player diff hp rfl, ← hknows.rows hplayed hd]
      exact hrow

/-- A packet in season takes along what a client knows. -/
theorem Handled.knows (h : Handled S c p s r s' es) (hknows : Knows t s)
    (hseason : s.networkState = .nsGameStarted → p.kind ≠ some .cIntro ∧
      (p.kind = some .cReady → ¬ (s.withPlayer (S.id p) (·.withReady true)).CanStart S))
    (hmatch : p.isAnswer = true →
      s.networkState = .nsGameStarted ∧ answerKind s.gameState = p.kind)
    (hfresh : s.Unplayed → s.AllFresh) (a : SystemAddress) :
    Knows (t.told (outbox a es)) s' := by
  have hready (b : Bool) : Knows t (s.withPlayer (S.id p) (·.withReady b)) :=
    hknows.congr rfl rfl (fun j q ↦ if j = S.id p then q.withReady b else q)
      (fun _ _ ↦ by split <;> rfl) rfl
  cases h with
  | malformed | counted | quiet | chats | stranger | misses => exact hknows.same rfl rfl rfl
  | joins hk =>
    have hlobby : s.networkState ≠ .nsGameStarted := fun hs ↦ (hseason hs).1 hk
    have hjoined : Knows t (s.joined S p) := by
      refine ⟨fun hs ↦ absurd hs hlobby, fun _ ↦ hknows.unplayed (.inl hlobby), fun hs ↦ ?_,
        fun hs ↦ ?_⟩ <;> exact absurd (.inl hlobby) hs
    split
    · exact hjoined
    · exact hjoined
  | readies => exact hready true
  | unreadies => exact hready false
  | starts hk hsender hall r s' es hstart =>
    have hlobby : s.networkState ≠ .nsGameStarted := fun hs ↦ (hseason hs).2 hk hall
    have hnone := hknows.unplayed (.inl hlobby)
    have hnew (s' : Server) (hstate : s'.gameState = .gsCharacterSelect) :
        Knows (t.heard .gameStarted) s' := by
      refine ⟨fun _ ↦ ⟨rfl, by rw [hstate]; rfl⟩, fun _ ↦ hnone, fun hs ↦ ?_, fun hs ↦ ?_⟩ <;>
        exact absurd (.inr hstate) hs
    cases hstart with
    | empty | lost => exact hnew _ rfl
    | passes first hb b haddr =>
      exact (hnew ((s.withPlayer (S.id p) (·.withReady true)).started first) rfl).outbox_turn a b _
  | chooses hk hsender r s' es hchosen =>
    obtain ⟨hstarted, hmatch⟩ := hmatch (by simp [Packet.isAnswer, hk])
    have hselect := answerKind_job (hmatch.trans hk)
    have hnone := hknows.unplayed (.inr hselect)
    have hchosen' : Knows t (s.withPlayer (S.id p) (·.chosen p)) := by
      refine ⟨hknows.started, fun _ ↦ hnone, fun hs ↦ ?_, fun hs ↦ ?_⟩ <;>
        exact absurd (.inr hselect) hs
    refine hchosen.knows hchosen' hstarted hselect (fun id player hp ↦ ?_) a
    rw [Server.withPlayer_players, OrdMap.find?_adjust] at hp
    split at hp
    · obtain ⟨q, hq, rfl⟩ := Option.map_eq_some_iff.mp hp
      exact hfresh (.inr hselect) id q hq
    · exact hfresh (.inr hselect) id player hp
  | acts hk hsender id player htarget hp r s' es hturn =>
    obtain ⟨hstarted, hmatch⟩ := hmatch (by simp [Packet.isAnswer, hk])
    have hmain : s.gameState = .gsMain := by
      rw [hk] at hmatch
      cases hs : s.gameState <;> simp_all [answerKind]
    have hplayed : ¬ s.Unplayed := by simp [Server.Unplayed, hstarted, hmain]
    have hacted := knows_acted (S := S) (c := c) (p := p) hknows hplayed id player hp a
    rw [outbox_append, GameClient.told_append]
    apply hturn.knows hacted
    · rwa [Server.acted_networkState]
    · rwa [Server.acted_gameState]

end

end RRPG
