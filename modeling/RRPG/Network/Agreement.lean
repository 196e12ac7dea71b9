import RRPG.Network.Knowledge

/-!
# Clients and server agree

In every run in season of honest clients the server goes on: it finds every sender and every
target, and somebody to pass the turn to. The client on turn knows the phase and the table as
the server has them, so its answer is of the kind the phase asks for, and is aimed at a player.
-/

open RRPG.Base RRPG.Base.Handler

namespace RRPG

/-! ### The server in season -/

/-- An action that finds a target, one who lives if no two players share a name. -/
def Aimed (S : Setup) (s : Server) (p : Packet) : Prop :=
  ∀ c, ∃ id player, target? S c p s = some id ∧ s.players.find? id = some player ∧
    (DistinctNames s → player.dead = false)

/-- A started game is past the lobby. Before the main game everybody is fresh; while a game goes on
enough players live, among them the one on turn. -/
structure Server.Playable (s : Server) : Prop where
  begun : s.networkState = .nsGameStarted → s.gameState ≠ .gsPending
  fresh : s.Unplayed → s.AllFresh
  enough : Live s → Enough s
  awake : Live s → Alive s.players s.currentPlayerTurn

theorem Server.Playable.init : Server.init.Playable where
  begun h := by simp [Server.init] at h
  fresh _ id player hp := by simp [Server.init] at hp
  enough h := by simp [Live, Server.init] at h
  awake h := by simp [Live, Server.init] at h

section
variable {S : Setup} {c : Chance} {p : Packet} {s s' : Server} {r : Except Halt Unit}
  {es : List Effect}

/-- A player of the name is found, and no other if the names are distinct. -/
theorem target?_of_name (c : Chance) {id : UInt32} {player : Player}
    (hp : s.players.find? id = some player) (hname : player.name = (readAction S c p).2) :
    ∃ id' player', target? S c p s = some id' ∧ s.players.find? id' = some player' ∧
      (DistinctNames s → player' = player) := by
  cases htarget : target? S c p s with
  | none =>
    unfold target? Server.getPlayerWithName OrdMap.findKey? at htarget
    rw [Option.map_eq_none_iff, List.find?_eq_none] at htarget
    exact absurd (by simpa using hname) (htarget _ ((OrdMap.find?_eq_some _ _ _).mp hp))
  | some id' =>
    obtain ⟨player', hp', hname'⟩ := target?_eq_some S c p s id' htarget
    refine ⟨id', player', rfl, hp', fun hd ↦ ?_⟩
    obtain rfl := hd id id' player player' hp hp' (hname.trans hname'.symm)
    exact Option.some.inj (hp'.symm.trans hp)

theorem Server.AllFresh.mapVal (h : s.AllFresh) (g : UInt32 → Player → Player) (hg : Harmless g)
    (hplayers : s'.players = s.players.mapVal g) : s'.AllFresh := by
  intro id player hp
  rw [hplayers, OrdMap.find?_mapVal, Option.map_eq_some_iff] at hp
  obtain ⟨q, hq, rfl⟩ := hp
  obtain ⟨_, hhealth, hdead⟩ := hg id q
  rw [hhealth, hdead]
  exact h id q hq

theorem Server.AllFresh.alive (h : s.AllFresh) {id : UInt32} (hid : id ∈ s.players) :
    Alive s.players id := by
  obtain ⟨player, hp⟩ := (s.players.mem_iff_find? id).mp hid
  exact ⟨player, hp, (h id player hp).2⟩

/-- Changes that hurt nobody keep an aim. -/
theorem Aimed.mapVal (h : Aimed S s p) (g : UInt32 → Player → Player) (hg : Harmless g)
    (hplayers : s'.players = s.players.mapVal g) : Aimed S s' p := by
  have hnames : SameNames s s' := fun id ↦ by
    rw [hplayers, OrdMap.find?_mapVal, Option.map_map]
    congr 1
    funext player
    exact (hg id player).1
  intro c
  obtain ⟨id, player, htarget, hp, hdead⟩ := h c
  refine ⟨id, g id player, hnames.target?_eq.trans htarget, ?_, fun hd ↦ ?_⟩
  · rw [hplayers, OrdMap.find?_mapVal, hp, Option.map_some]
  · rw [(hg id player).2.2]
    exact hdead (hnames.distinct hd)

/-- A turn passed on is with a living player. -/
theorem NextTurnDoes.awake (h : NextTurnDoes s r s' es) (hr : r = .ok ())
    (hover : s'.gameState ≠ .gsGameOver) : Alive s'.players s'.currentPlayerTurn := by
  cases h with
  | passes hcur id hnext => exact hnext.living
  | ends => exact absurd rfl hover
  | _ => cases hr

theorem NextTurnDoes.gameState (h : NextTurnDoes s r s' es) :
    s'.gameState = s.gameState ∨ s'.gameState = .gsGameOver := by
  cases h with
  | ends => exact .inr rfl
  | _ => exact .inl rfl

/-- An answer in season is served, and the game stays playable. -/
theorem Server.Playable.answer (hs : s.Playable) (hv : s.Valid) (hlive : Live s)
    (h : Handled S c p s r s' es) (hp : p.isAnswer = true)
    (hmatch : answerKind s.gameState = p.kind) (hsender : S.id p ∈ s.players)
    (haimed : p.kind = some .cActionTaken → Aimed S s p) : r = .ok () ∧ s'.Playable := by
  have htarget (hk : p.kind = some .cActionTaken) : target? S c p s ≠ none := by
    obtain ⟨_, _, htarget, _⟩ := haimed hk c
    simp [htarget]
  obtain ⟨hr, hgoes⟩ := h.answer_goesOn hp hsender hv hlive.1 hlive.2 (hs.enough hlive) htarget
  have hnet := (h.answer_handsOut hp hlive.2).1.trans hlive.1
  have henough (hlive' : Live s') : Enough s' := by
    cases hgoes with
    | inl hover => exact absurd hover.1 hlive'.2
    | inr hgoes => exact hgoes.2.1
  have hkind : p.kind = some .cJobChosen ∨ p.kind = some .cActionTaken := by
    simpa [Packet.isAnswer] using hp
  cases hkind with
  | inl hk =>
    have hselect := answerKind_job (hmatch.trans hk)
    have hfresh : (s.withPlayer (S.id p) (·.chosen p)).AllFresh :=
      (hs.fresh (.inr hselect)).mapVal _ (harmless_adjust (S.id p) (·.chosen p)
        fun _ ↦ ⟨rfl, rfl, rfl⟩) rfl
    have hchosen := h.of_job_chosen hk hsender
    refine ⟨hr, fun _ ↦ ?_, fun _ id player hplayer ↦ ?_, henough, fun hlive' ↦ ?_⟩
    · cases hchosen with
      | passes => exact hselect ▸ by simp
      | starts hcur hnext r s' es hturn => rcases hturn.gameState with h | h <;> simp [h]
      | _ => cases hr
    · rw [hchosen.players] at hplayer
      exact hfresh id player hplayer
    · cases hchosen with
      | passes hcur id hnext => exact hfresh.alive ((OrdMap.next?_eq_some _ _ id).mp hnext).1
      | starts hcur hnext r s' es hturn => exact hturn.awake hr hlive'.2
      | _ => cases hr
  | inr hk =>
    have hmain : s.gameState = .gsMain := by
      rw [hk] at hmatch
      cases hstate : s.gameState <;> simp_all [answerKind]
    rcases h.of_action_taken hk hsender with ⟨hnone, _⟩ | ⟨id, player, es', _, _, hturn, _⟩
    · exact absurd hnone (htarget hk)
    · have hstate := hturn.gameState
      rw [Server.acted_gameState, hmain] at hstate
      refine ⟨hr, fun _ ↦ ?_, fun hu ↦ ?_, henough, fun hlive' ↦ hturn.awake hr hlive'.2⟩
      · rcases hstate with h | h <;> simp [h]
      · unfold Server.Unplayed at hu
        simp_all

/-- Any other packet from a registered sender is served as well. -/
theorem Handled.other_returns (h : Handled S c p s r s' es) (hp : p.isAnswer = false)
    (hid : p.identifier ≠ none) (hsender : p.asks = true → S.id p ∈ s.players) (hv : s.Valid) :
    r = .ok () := by
  have hkind : p.kind ≠ some .cJobChosen ∧ p.kind ≠ some .cActionTaken := by
    simpa [Packet.isAnswer] using hp
  cases h with
  | malformed h => exact absurd h hid
  | stranger k hk hneeds hnone =>
    refine absurd (hsender ?_) hnone
    simp only [List.mem_cons, List.not_mem_nil, or_false] at hneeds
    rcases hneeds with rfl | rfl | rfl | rfl | rfl <;> simp [Packet.asks, hk]
  | chooses hk => exact absurd hk hkind.1
  | misses hk => exact absurd hk hkind.2
  | acts hk => exact absurd hk hkind.2
  | starts hk hsender hall r s' es hstart =>
    obtain ⟨_, _, _, _, hr, _⟩ := hstart.of_registered (hv.withPlayer _ _).registered
      ⟨S.id p, by simpa using hsender⟩
    exact hr
  | _ => rfl

/-- A packet that is no answer hurts nobody, unless it joins. -/
theorem Handled.harmless (h : Handled S c p s r s' es) (hp : p.isAnswer = false)
    (hintro : p.kind ≠ some .cIntro) : ∃ g, Harmless g ∧ s'.players = s.players.mapVal g := by
  have hchange := h.playersChange
  generalize s'.players = players at hchange ⊢
  cases hchange with
  | joined hk => exact absurd hk hintro
  | kept hno g hg => exact ⟨g, hg, rfl⟩
  | struck id player diff hstrike => simp [Packet.isAnswer, hstrike.kind] at hp

theorem Server.AllFresh.joined (h : s.AllFresh) : (s.joined S p).AllFresh := by
  intro id player hp
  rw [Server.joined, OrdMap.find?_emplace] at hp
  split at hp
  · obtain rfl := Option.some.inj hp
    exact ⟨rfl, rfl⟩
  · exact h id player hp

/-- The start of a game is playable. -/
theorem StartGameDoes.playable (h : StartGameDoes s r s' es) (hv : s.Valid) (hfresh : s.AllFresh)
    (hne : ∃ id, id ∈ s.players) : s'.Playable := by
  obtain ⟨first, a, hfirst, _, _, rfl, _⟩ := h.of_registered hv.registered hne
  have hmem := ((s.players.begin?_eq_some first).mp hfirst).1
  refine ⟨by simp [Server.started], fun _ ↦ hfresh.mapVal
    (fun _ player ↦ { player with ready := false }) (fun _ _ ↦ ⟨rfl, rfl, rfl⟩) rfl,
    fun _ ↦ ?_, fun _ ↦ ?_⟩
  · exact (enough_of_fresh ⟨hv.registered, hne, hfresh⟩).started first
  · exact (alive_started s first first).mpr (hfresh.alive hmem)

/-- A packet in season that is no answer keeps the game playable. -/
theorem Server.Playable.other (hs : s.Playable) (hv : s.Valid) (h : Handled S c p s r s' es)
    (hp : p.isAnswer = false) (hsender : p.asks = true → S.id p ∈ s.players)
    (hseason : s.networkState = .nsGameStarted → p.kind ≠ some .cIntro ∧
      (p.kind = some .cReady → ¬ (s.withPlayer (S.id p) (·.withReady true)).CanStart S)) :
    s'.Playable := by
  rcases h.other_cases hp with ⟨_, _, hcur, hnet, hstate⟩ | ⟨hk, hall, hstart⟩
  · have hlive : Live s' ↔ Live s := by rw [Live, Live, hnet, hstate]
    by_cases hintro : p.kind = some .cIntro
    · have hlobby : s.networkState ≠ .nsGameStarted := fun hs ↦ (hseason hs).1 hintro
      obtain ⟨_, rfl, _⟩ := h.of_intro hintro
      exact ⟨fun h ↦ absurd h hlobby, fun _ ↦ (hs.fresh (.inl hlobby)).joined,
        fun h ↦ absurd h.1 hlobby, fun h ↦ absurd h.1 hlobby⟩
    · obtain ⟨g, hg, hplayers⟩ := h.harmless hp hintro
      refine ⟨by rw [hnet, hstate]; exact hs.begun, fun hu ↦ ?_, fun h ↦ ?_, fun h ↦ ?_⟩
      · rw [Server.Unplayed, hnet, hstate] at hu
        exact (hs.fresh hu).mapVal g hg hplayers
      · exact (hs.enough (hlive.mp h)).of_harmless g hg hplayers
      · rw [hplayers, hcur]
        exact (alive_mapVal _ g hg _).mpr (hs.awake (hlive.mp h))
  · have hlobby : s.networkState ≠ .nsGameStarted := fun hs ↦ (hseason hs).2 hk hall
    apply hstart.playable (hv.withPlayer _ _)
    · exact (hs.fresh (.inl hlobby)).mapVal _ (harmless_adjust (S.id p) (·.withReady true)
        fun _ ↦ ⟨rfl, rfl, rfl⟩) rfl
    · exact ⟨S.id p, by simpa using hsender (by simp [Packet.asks, hk])⟩

end

/-! ### Runs -/

/-- An answer of the kind the game asks for, with its target. -/
def Fitting (S : Setup) (s : Server) (p : Packet) : Prop :=
  answerKind s.gameState = p.kind ∧ (p.kind = some .cActionTaken → Aimed S s p)

variable {S : Setup} {Peer : Type}

/-- What holds in every run in season: the server goes on, the messages said to a registered client
tell it the server's phase and table, and every answer on its way fits. -/
structure Roster.Agreed (P : Roster S Peer) (C : StringCodec S.toRakNet) (n : Net Peer) : Prop where
  steady : P.Steady C n
  playable : n.world.server.Playable
  running : n.halt = none
  knows : ∀ k, (n.client k).link = .linked →
    (n.world.server.networkState = .nsGameStarted → P.id k ∈ n.world.server.players) →
    Knows (P.view k ((n.client k).received ++ (n.client k).down)) n.world.server
  fitting : ∀ k, ∀ p ∈ (n.client k).up, p.isAnswer = true → Fitting S n.world.server p

section
variable {C : StringCodec S.toRakNet} {P : Roster S Peer} {n n' : Net Peer} {k : Peer}
  {p : Packet} {rest : List Packet} {c : Chance} {r : Except Halt Unit} {s' : Server}
  {es : List Effect}

theorem Roster.Agreed.init : P.Agreed C (Net.init : Net Peer) where
  steady := .init
  playable := .init
  running := rfl
  knows k hl := by simp [Net.init] at hl
  fitting k p hp := by simp [Net.init] at hp

/-- A client that owes an answer is the current player of a live game, and knows all of it. -/
theorem Roster.Agreed.known (hn : P.Agreed C n) (hl : (n.client k).link = .linked)
    (hturn : (n.client k).answered < turnCount (n.client k).received) :
    Live n.world.server ∧ P.id k = n.world.server.currentPlayerTurn ∧
      Knows (P.view k (n.client k).received) n.world.server := by
  obtain ⟨hlive, hcur⟩ := hn.steady.tokens.holder k (by
    unfold Client.tokens
    omega)
  have hmem : P.id k ∈ n.world.server.players := hcur ▸ hn.steady.valid.pointer hlive.1
  refine ⟨hlive, hcur, ?_⟩
  have hknows := hn.knows k hl fun _ ↦ hmem
  rw [P.view_append] at hknows
  exact hknows.alike (GameClient.told_of_no_news _ _ (hn.steady.quiet k hturn)).symm

theorem GameState.byte_inj {a b : GameState} (h : a.byte = b.byte) : a = b := by
  cases a <;> cases b <;> first | rfl | exact absurd h (by decide)

/-- Whom a client on turn names is a player, and lives if no two share a name. -/
theorem Roster.Agreed.aim (hn : P.Agreed C n) (hlive : Live n.world.server)
    (hcur : P.id k = n.world.server.currentPlayerTurn) (hplayed : ¬ n.world.server.Unplayed)
    {t : GameClient} (hknows : Knows t n.world.server) (hname : t.player.name = P.name k)
    {word name : Bytes} (htarget : t.target? word = some name) :
    ∃ id player, n.world.server.players.find? id = some player ∧
      player.name = CString.ofBytes 256 name ∧
      (DistinctNames n.world.server → player.dead = false) := by
  unfold GameClient.target? at htarget
  split at htarget
  · -- itself
    obtain ⟨player, hp, hdead⟩ := hn.playable.awake hlive
    rw [← hcur] at hp
    refine ⟨P.id k, player, hp, ?_, fun _ ↦ hdead⟩
    rw [← Option.some.inj htarget, hname]
    exact hn.steady.safe.name_eq k player hp
  · split at htarget
    · next hany =>
      obtain rfl := Option.some.inj htarget
      obtain ⟨q, hq, hqword⟩ := List.any_eq_true.mp hany
      obtain ⟨hword, hdead⟩ := of_decide_eq_true hqword
      have hstored (player : Player) (h : player.name.bytes = q.name) :
          player.name = CString.ofBytes 256 word := by
        rw [← hword, ← h, CString.ofBytes_bytes]
      by_cases hd : DistinctNames n.world.server
      · have hrow : q.row ∈ n.world.server.rows :=
          hknows.rows hplayed hd ▸ List.mem_map_of_mem hq
        obtain ⟨id, player, hp, hsame⟩ := (Server.mem_rows _ _).mp hrow
        obtain ⟨hbytes, hrest⟩ := Prod.mk.inj hsame
        exact ⟨id, player, hp, hstored player hbytes,
          fun _ ↦ (Prod.mk.inj (Prod.mk.inj hrest).2).2.trans hdead⟩
      · have hfst : q.name ∈ n.world.server.rows.map Prod.fst :=
          hknows.names hplayed ▸ List.mem_map_of_mem hq
        obtain ⟨row, hrow, hbytes⟩ := List.mem_map.mp hfst
        obtain ⟨id, player, hp, rfl⟩ := (Server.mem_rows _ _).mp hrow
        exact ⟨id, player, hp, hstored player hbytes, fun h ↦ absurd h hd⟩
    · cases htarget

/-- What a client on turn makes of a line fits. -/
theorem Roster.Agreed.fitting_of_typed (hn : P.Agreed C n) (hl : (n.client k).link = .linked)
    {line : Bytes} {s' : GameClient} {packet : ClientPacket}
    (htyped : (P.mind k (n.client k)).Typed line s' (some packet))
    (hdata : p.data = (packet.bits C.toStringCompressor).pack) (hp : p.isAnswer = true) :
    Fitting S n.world.server p := by
  obtain ⟨_, hkind, _⟩ := Packet.payload_of_pack hdata
  have hanswer := (packet.isAnswer_of_data C.toStringCompressor p hdata).symm.trans hp
  have hturn : (n.client k).answered < turnCount (n.client k).received := by
    simpa [Roster.mind] using htyped.turn.1 packet rfl hanswer
  obtain ⟨hlive, hcur, hknows⟩ := hn.known hl hturn
  have hphase {gameState : GameState}
      (h : (P.view k (n.client k).received).gameState = gameState.byte) :
      n.world.server.gameState = gameState :=
    GameState.byte_inj ((hknows.started hlive.1).2.symm.trans h)
  have hown := P.own_of_typed k _ htyped
  cases htyped with
  | answers hstate hmine answer hanswers =>
    cases hanswers with
    | job hstate cc hcc =>
      exact ⟨by rw [hphase hstate, hkind]; rfl, by simp [hkind]⟩
    | action hstate command word rest hwords action haction name htarget =>
      have hmain := hphase hstate
      have hplayed : ¬ n.world.server.Unplayed := by simp [Server.Unplayed, hlive.1, hmain]
      obtain ⟨id, player, hfind, hname, hdead⟩ := hn.aim hlive hcur hplayed
        (t := P.mind k (n.client k)) (hknows.alike ⟨rfl, rfl, rfl, rfl⟩)
        (P.view_name k _) htarget
      refine ⟨by rw [hmain, hkind]; rfl, fun _ c ↦ ?_⟩
      have hread := ((ClientPacket.actionTaken action name).understood C
        (hown.fits (.inr rfl)) p hdata).2 c
      obtain ⟨id', player', htarget, hfind', hsame⟩ :=
        target?_of_name (S := S) (p := p) c hfind (hname.trans hread.2.symm)
      exact ⟨id', player', htarget, hfind', fun hd ↦ hsame hd ▸ hdead hd⟩
  | _ => cases hanswer

theorem Roster.Agreed.fitting_of_honest (hn : P.Agreed C n) (hl : (n.client k).link = .linked)
    (hrule : (honest C P (InSeason S)).send n k p) (hp : p.isAnswer = true) :
    Fitting S n.world.server p := by
  rcases hrule with h | ⟨ready, h⟩ | ⟨_, line, s', packet, htyped, h⟩
  · simp [Packet.isAnswer, (lowLevel_of_notice h).2.1] at hp
  · rw [ClientPacket.isAnswer_of_data _ _ p h] at hp
    cases hp
  · exact hn.fitting_of_typed hl htyped h hp

/-- What a client does itself. -/
theorem Roster.Agreed.set [DecidableEq Peer] (hn : P.Agreed C n) (client : Client)
    (hsteady : P.Steady C (n.set k client))
    (hknows : client.link = .linked →
      (n.world.server.networkState = .nsGameStarted → P.id k ∈ n.world.server.players) →
      Knows (P.view k (client.received ++ client.down)) n.world.server)
    (hfitting : ∀ p ∈ client.up, p.isAnswer = true → Fitting S n.world.server p) :
    P.Agreed C (n.set k client) where
  steady := hsteady
  playable := hn.playable
  running := hn.running
  knows := Net.set_forall _ (fun j c ↦ c.link = .linked →
    (n.world.server.networkState = .nsGameStarted → P.id j ∈ n.world.server.players) →
    Knows (P.view j (c.received ++ c.down)) n.world.server) hknows fun j _ ↦ hn.knows j
  fitting := Net.set_forall _ (fun _ c ↦ ∀ p ∈ c.up, p.isAnswer = true →
    Fitting S n.world.server p) hfitting fun j _ ↦ hn.fitting j

/-- A newly connected client knows what there is to know: nothing. -/
theorem Roster.Agreed.knows_start (hn : P.Agreed C n) (hl : (n.client k).link = .absent)
    (hmem : n.world.server.networkState = .nsGameStarted → P.id k ∈ n.world.server.players) :
    Knows (P.start k) n.world.server := by
  have hlobby : n.world.server.networkState ≠ .nsGameStarted := fun hs ↦
    (hn.steady.absent k hl).2 (hmem hs)
  refine ⟨fun hs ↦ absurd hs hlobby, fun _ ↦ rfl, fun hs ↦ ?_, fun hs ↦ ?_⟩ <;>
    exact absurd (.inl hlobby) hs

/-- The sender of a packet in front of a queue is registered, if the handler looks it up. -/
theorem Roster.Agreed.sender (hn : P.Agreed C n) (hup : (n.client k).up = p :: rest)
    (hasks : p.asks = true) : S.id p ∈ n.world.server.players := by
  have hprepared := hn.steady.prepared k
  rw [hup] at hprepared
  rw [(hn.steady.tokens.sent k p (by simp [hup])).1]
  exact hprepared.1 hasks

/-- An answer is one of a live game. -/
theorem Roster.Agreed.live (hn : P.Agreed C n) (hmem : p ∈ (n.client k).up)
    (hp : p.isAnswer = true) : Live n.world.server :=
  (hn.steady.tokens.holder k ((n.client k).tokens_pos_of_answer p hmem hp)).1

/-- In season nothing stops the server. -/
theorem Roster.Agreed.served (hn : P.Agreed C n) (hup : (n.client k).up = p :: rest)
    (hrule : InSeason S n p) (hhandled : Handled S c p n.world.server r s' (core es)) :
    r = .ok () ∧ s'.Playable := by
  have hmem : p ∈ (n.client k).up := by simp [hup]
  cases hp : p.isAnswer with
  | true =>
    have hlive := hn.live hmem hp
    obtain ⟨hmatch, haimed⟩ := hn.fitting k p hmem hp
    exact hn.playable.answer hn.steady.valid hlive hhandled hp hmatch
      (hn.sender hup (p.asks_of_isAnswer hp)) haimed
  | false =>
    have hid : p.identifier ≠ none := by
      cases hn.steady.safe.sent k p hmem with
      | notice _ hdata => simp [(lowLevel_of_notice hdata).1]
      | packet _ packet hdata => simp [(Packet.payload_of_pack hdata).1]
    refine ⟨hhandled.other_returns hp hid (hn.sender hup) hn.steady.valid,
      hn.playable.other hn.steady.valid hhandled hp (hn.sender hup) fun hs ↦ ?_⟩
    exact ⟨(hrule hs).1, fun hk ↦ (honest_disciplined C P).noRestart n p hrule hk hs⟩

/-- What the server does. -/
theorem Roster.Agreed.handled [DecidableEq Peer] (hn : P.Agreed C n)
    (hup : (n.client k).up = p :: rest) (hrule : InSeason S n p)
    (hhandled : Handled S c p n.world.server r s' (core es))
    (hsteady : P.Steady C ((n.set k ((n.client k).pop rest)).handled P.toPeers r s' es)) :
    P.Agreed C ((n.set k ((n.client k).pop rest)).handled P.toPeers r s' es) := by
  have hmem : p ∈ (n.client k).up := by simp [hup]
  have hstarted := (hhandled.pointerKept hn.steady.valid).started
  obtain ⟨rfl, hplayable⟩ := hn.served hup hrule hhandled
  refine ⟨hsteady, hplayable, rfl, fun j hl hj ↦ ?_, fun j q hq hanswer ↦ ?_⟩
  · obtain ⟨hlinked, hdown⟩ := (Client.after_down (P.addr j)
      ((n.set k ((n.client k).pop rest)).client j) es).1 hl
    obtain ⟨up, hpopped⟩ := n.popped k rest j
    rw [hpopped] at hlinked hdown
    have hknows := hn.knows j hlinked fun hs ↦
      ((hhandled.sameNames (hrule hs).1).mem _).mp (hj (hstarted hs).1)
    simp only [Net.handled, Client.after_received, hpopped]
    rw [hdown, ← List.append_assoc, P.view_append]
    show Knows (GameClient.told _ (outbox (P.addr j) es)) s'
    rw [GameClient.told_outbox_core]
    refine hhandled.knows hknows (fun hs ↦ ⟨(hrule hs).1, fun hk ↦
      (honest_disciplined C P).noRestart n p hrule hk hs⟩) (fun hp ↦ ?_) hn.playable.fresh _
    exact ⟨(hn.live hmem hp).1, (hn.fitting k p hmem hp).1⟩
  · have hq : q ∈ ((n.set k ((n.client k).pop rest)).client j).up := Net.mem_up_of_handled j q hq
    cases hp : p.isAnswer with
    | true =>
      have hpos := Client.tokens_pos_of_answer _ q hq hanswer
      rw [hn.steady.tokens.spent k p rest hup hp j] at hpos
      exact absurd hpos (lt_irrefl 0)
    | false =>
      have hq := Net.mem_up_of_pop hup j q hq
      have hlive := hn.live hq hanswer
      obtain ⟨hmatch, haimed⟩ := hn.fitting j q hq hanswer
      rcases hhandled.other_cases hp with ⟨_, _, _, _, hstate⟩ | ⟨hk, hall, _⟩
      · obtain ⟨g, hg, hplayers⟩ := hhandled.harmless hp (hrule hlive.1).1
        exact ⟨(congrArg answerKind hstate).trans hmatch, fun hk ↦ (haimed hk).mapVal g hg hplayers⟩
      · exact absurd hall ((honest_disciplined C P).noRestart n p hrule hk hlive.1)

/-- Every step keeps it. -/
theorem Roster.Agreed.step [DecidableEq Peer] (hn : P.Agreed C n)
    (h : Step P.toPeers (honest C P (InSeason S)) n n') : P.Agreed C n' := by
  have hsteady := hn.steady.step h
  cases h with
  | connect k hl =>
    refine hn.set _ hsteady (fun _ hmem ↦ ?_) (hn.fitting k)
    have hclient := (hn.steady.absent k hl).1
    show Knows (P.view k ((n.client k).received ++ (n.client k).down)) n.world.server
    rw [hclient]
    exact hn.knows_start hl hmem
  | deliver k hl m rest hdown =>
    refine hn.set _ hsteady (fun _ hmem ↦ ?_) (hn.fitting k)
    have hknows := hn.knows k hl hmem
    rw [hdown] at hknows
    show Knows (P.view k ((n.client k).received ++ [m] ++ rest)) n.world.server
    rwa [List.append_assoc, List.singleton_append]
  | send k hl p hfrom hrule =>
    refine hn.set _ hsteady (hn.knows k) fun q hq hanswer ↦ ?_
    cases List.mem_append.mp hq with
    | inl hq => exact hn.fitting k q hq hanswer
    | inr hq =>
      obtain rfl := List.mem_singleton.mp hq
      exact hn.fitting_of_honest hl hrule hanswer
  | serve hrunning k p rest hup hrule c r s' es hexec =>
    exact hn.handled hup hrule (handled_of_step S c p n.world r s' es hexec) hsteady

end

end RRPG
