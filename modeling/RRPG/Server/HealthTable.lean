import RRPG.Server.Termination

/-!
# The health table

Who follows the server's reports keeps a table of names and healths: `S_UPDATE_GAME_STATE`
with players replaces it, `S_UPDATE_PLAYER_HP` overwrites one entry. As long as the names
are distinct and nobody joins, the reports of every packet take the server's table before it
to the one after it.
-/

open RRPG.Base RRPG.Base.Handler

namespace RRPG

/-! ### Tables -/

/-- Healths by name. -/
abbrev Table : Type := Name → Option Int

/-- The table a list of records writes down. -/
def tableOf (records : List PlayerRecord) : Table :=
  fun name ↦ (records.find? fun record ↦ record.name = name).map PlayerRecord.health

/-- The server's own table. -/
def Server.table (s : Server) : Table := tableOf s.records

/-- A table after a message. -/
def Table.update (table : Table) : Message → Table
  | .updateGameState _ (some records) => tableOf records
  | .updatePlayerHp name health => Function.update table name (some health)
  | _ => table

/-- A table after some messages. -/
def Table.follow (table : Table) (messages : List Message) : Table :=
  messages.foldl Table.update table

@[simp] theorem Table.follow_append (table : Table) (xs ys : List Message) :
    table.follow (xs ++ ys) = (table.follow xs).follow ys :=
  List.foldl_append

/-- No two players share a name. -/
def DistinctNames (s : Server) : Prop :=
  ∀ i j p q, s.players.find? i = some p → s.players.find? j = some q → p.name = q.name → i = j

theorem distinctNames_of_nodup (s : Server)
    (h : (s.players.entries.map fun e ↦ e.2.name).Nodup) : DistinctNames s := by
  intro i j p q hp hq hname
  have := List.inj_on_of_nodup_map h ((OrdMap.find?_eq_some _ _ _).mp hp)
    ((OrdMap.find?_eq_some _ _ _).mp hq) hname
  exact congrArg Prod.fst this

theorem SameNames.distinct {s s' : Server} (h : SameNames s s') (hd : DistinctNames s') :
    DistinctNames s := by
  intro i j p q hp hq hname
  have hi := h i
  have hj := h j
  rw [hp, Option.map_some, Option.map_eq_some_iff] at hi
  rw [hq, Option.map_some, Option.map_eq_some_iff] at hj
  obtain ⟨p', hp', hpn⟩ := hi
  obtain ⟨q', hq', hqn⟩ := hj
  exact hd i j p' q' hp' hq' (by rw [hpn, hqn, hname])

/-- Under distinct names the table holds the health of every player, and nothing else. -/
theorem Server.table_eq_some (s : Server) (hd : DistinctNames s) (name : Name) (health : Int) :
    s.table name = some health ↔
      ∃ id player, s.players.find? id = some player ∧ player.name = name ∧
        player.health = health := by
  unfold Server.table tableOf Server.records
  rw [List.find?_map, Option.map_map, Option.map_eq_some_iff]
  constructor
  · rintro ⟨⟨id, player⟩, he, rfl⟩
    refine ⟨id, player, (OrdMap.find?_eq_some _ _ _).mpr (List.mem_of_find?_eq_some he), ?_, rfl⟩
    simpa using List.find?_some he
  · rintro ⟨id, player, hp, hname, rfl⟩
    have hmem := (OrdMap.find?_eq_some _ _ _).mp hp
    cases he : s.players.entries.find? ((fun record ↦ decide (PlayerRecord.name record = name)) ∘
        fun e ↦ ⟨e.2.name, e.2.health, e.2.ready, e.2.job⟩) with
    | none =>
      have := List.find?_eq_none.mp he _ hmem
      simp [hname] at this
    | some e =>
      obtain ⟨id', player'⟩ := e
      have hp' := (OrdMap.find?_eq_some _ _ _).mpr (List.mem_of_find?_eq_some he)
      have hname' : player'.name = name := by simpa using List.find?_some he
      obtain rfl := hd id id' player player' hp hp' (hname.trans hname'.symm)
      obtain rfl := Option.some.inj (hp.symm.trans hp')
      exact ⟨_, rfl, rfl⟩

/-- Changes that keep names and healths keep the table. -/
theorem Server.table_mapVal (s s' : Server) (hd : DistinctNames s)
    (g : UInt32 → Player → Player) (hg : Harmless g)
    (hplayers : s'.players = s.players.mapVal g) : s'.table = s.table := by
  have hd' : DistinctNames s' := by
    refine SameNames.distinct (fun id ↦ ?_) hd
    rw [hplayers, OrdMap.find?_mapVal, Option.map_map]
    congr 1
    funext player
    exact (hg id player).1.symm
  funext name
  apply Option.ext
  intro health
  rw [s.table_eq_some hd, s'.table_eq_some hd', hplayers]
  simp only [OrdMap.find?_mapVal, Option.map_eq_some_iff]
  constructor
  · rintro ⟨id, _, ⟨player, hp, rfl⟩, hname, hhealth⟩
    exact ⟨id, player, hp, (hg id player).1 ▸ hname, (hg id player).2.1 ▸ hhealth⟩
  · rintro ⟨id, player, hp, hname, hhealth⟩
    exact ⟨id, _, ⟨player, hp, rfl⟩, (hg id player).1.trans hname,
      (hg id player).2.1.trans hhealth⟩

/-- A strike overwrites one entry of the table. -/
theorem Server.table_struck (s s' : Server) (hd : DistinctNames s) (id : UInt32)
    (player : Player) (diff : Int) (hp : s.players.find? id = some player)
    (hplayers : s'.players = s.players.adjust id (·.struck diff)) :
    s'.table = s.table.update (.updatePlayerHp player.name (player.struck diff).health) := by
  have hfind (j : UInt32) : s'.players.find? j =
      if j = id then some (player.struck diff) else s.players.find? j := by
    rw [hplayers, OrdMap.find?_adjust_of_find? _ _ _ _ hp]
  have hd' : DistinctNames s' := by
    refine SameNames.distinct (fun j ↦ ?_) hd
    rw [hfind]
    split
    · next hj => rw [hj, hp]; rfl
    · rfl
  funext name
  apply Option.ext
  intro health
  rw [s'.table_eq_some hd', Table.update, Function.update_apply]
  split
  · next hname =>
    subst hname
    constructor
    · rintro ⟨j, q, hq, hname, rfl⟩
      rw [hfind] at hq
      split at hq
      · rw [Option.some.inj hq]
      · next hj => exact absurd (hd j id q player hq hp hname) hj
    · intro h
      exact ⟨id, player.struck diff, by rw [hfind, if_pos rfl], rfl, Option.some.inj h⟩
  · next hne =>
    rw [s.table_eq_some hd]
    refine exists_congr fun j ↦ exists_congr fun q ↦ ?_
    rw [hfind]
    split
    · next hj =>
      subst hj
      rw [hp]
      constructor
      · rintro ⟨hq, hname, _⟩
        exact absurd ((Option.some.inj hq) ▸ hname).symm hne
      · rintro ⟨hq, hname, _⟩
        exact absurd ((Option.some.inj hq) ▸ hname).symm hne
    · exact Iff.rfl

/-! ### Reports -/

/-- A message that changes tables. -/
def Message.isReport : Message → Bool
  | .updateGameState _ (some _) => true
  | .updatePlayerHp _ _ => true
  | _ => false

/-- What an effect reports to everybody. -/
def Effect.report? : Effect → Option Message
  | ⟨.send .all message, _⟩ => if message.isReport then some message else none
  | _ => none

/-- The reports sent, oldest first. -/
def reports (trace : List Effect) : List Message := trace.filterMap Effect.report?

@[simp] theorem reports_nil : reports [] = [] := rfl

@[simp] theorem reports_cons (e : Effect) (t : List Effect) :
    reports (e :: t) = e.report?.toList ++ reports t := by
  cases h : e.report? <;> simp [reports, h]

@[simp] theorem reports_append (t u : List Effect) : reports (t ++ u) = reports t ++ reports u :=
  List.filterMap_append

/-- A report is an effect of the game proper. -/
theorem Effect.isCore_of_report? (e : Effect) (h : e.report? ≠ none) : e.act.isCore = true := by
  obtain ⟨act, s⟩ := e
  unfold Effect.report? at h
  split at h
  · next message _ hact =>
    cases hact
    cases message <;> simp_all [Message.isReport]
  · exact absurd rfl h

@[simp] theorem reports_core (t : List Effect) : reports (core t) = reports t :=
  filterMap_core Effect.report? Effect.isCore_of_report? t

/-- What a packet reports, and what that says about the players. -/
inductive Reports (s s' : Server) (es : List Effect) : Prop
  | nothing (hreports : reports es = []) (hmain : ∀ t, (.startMainGame, t) ∉ entries es)
      (g : UInt32 → Player → Player) (hg : Harmless g) (hplayers : s'.players = s.players.mapVal g)
  | hit (id : UInt32) (player : Player) (diff : Int) (hp : s.players.find? id = some player)
      (hplayers : s'.players = s.players.adjust id (·.struck diff))
      (hreports : reports es = [.updatePlayerHp player.name (player.struck diff).health])
      (hmain : ∀ t, (.startMainGame, t) ∉ entries es)
  | all (hreports : reports es = [.updateGameState .gsMain (some s'.records)])
      (t : Server) (hmain : (.startMainGame, t) ∈ entries es)

section
variable {S : Setup} {c : Chance} {p : Packet} {s s' : Server} {r : Except Halt Unit}
  {es : List Effect}

theorem NextTurnDoes.reports_eq_nil (h : NextTurnDoes s r s' es) : reports es = [] := by
  cases h <;> simp [Effect.report?, Message.isReport]

theorem StartGameDoes.reports_eq_nil (h : StartGameDoes s r s' es) : reports es = [] := by
  cases h <;> simp [Effect.report?, Message.isReport]

/-- An action reports the health it leaves, if it has one. -/
theorem reports_acts (S : Setup) (c : Chance) (p : Packet) (id : UInt32) (player : Player)
    (hp : s.players.find? id = some player) (h : NextTurnDoes (s.acted S c p id) r s' es) :
    Reports s s' (actionReport S c p s id player ++
      ⟨.enter .nextTurn, s.acted S c p id⟩ :: es) := by
  have hreports := h.reports_eq_nil
  have hmain := h.not_entered .startMainGame (by simp)
  have hplayers := h.players
  unfold Server.acted at hplayers
  unfold actionReport
  cases hdiff : diff? S c p with
  | none =>
    rw [hdiff] at hplayers
    exact .nothing (by simp [Effect.report?, hreports]) (by simpa using hmain)
      (fun _ player ↦ player) (fun _ _ ↦ ⟨rfl, rfl, rfl⟩) (by simpa using hplayers)
  | some diff =>
    rw [hdiff] at hplayers
    exact .hit id player diff hp hplayers
      (by simp [Effect.report?, Message.isReport, hreports]) (by simpa using hmain)

/-- Every packet but an introduction reports what it changes. -/
theorem Handled.reported (h : Handled S c p s r s' es) (hk : p.kind ≠ some .cIntro) :
    Reports s s' es := by
  have hkept (hno : ∀ id player diff, ¬ Strikes S c p s id player diff) :
      ∃ g, Harmless g ∧ s'.players = s.players.mapVal g := by
    have hchange := h.playersChange
    generalize s'.players = players at hchange ⊢
    cases hchange with
    | joined hk' => exact absurd hk' hk
    | kept _ g hg => exact ⟨g, hg, rfl⟩
    | struck id player diff hstrike => exact absurd hstrike (hno id player diff)
  have hother (hno : ∀ id player diff, ¬ Strikes S c p s id player diff)
      (hreports : reports es = []) (hmain : ∀ t, (.startMainGame, t) ∉ entries es) :
      Reports s s' es := by
    obtain ⟨g, hg, hplayers⟩ := hkept hno
    exact .nothing hreports hmain g hg hplayers
  have hkind (hk : p.kind ≠ some .cActionTaken) (id : UInt32) (player : Player) (diff : Int) :
      ¬ Strikes S c p s id player diff := fun h ↦ hk h.kind
  cases h with
  | malformed hid => exact hother (hkind (by simp [Packet.kind, hid])) rfl (by simp)
  | joins hk' => exact absurd hk' hk
  | counted i hlow =>
    refine hother (hkind fun hk ↦ ?_) rfl (by simp)
    simp [p.lowLevel_of_kind _ hk] at hlow
  | quiet hlow hk' =>
    refine hother (hkind fun hk ↦ ?_) rfl (by simp)
    simp [hk] at hk'
  | stranger k hk' hneeds hsender => exact hother (fun _ _ _ h ↦ hsender h.sender) rfl (by simp)
  | misses hk' hsender htarget =>
    refine hother (fun id _ _ h ↦ ?_) rfl (by simp)
    exact absurd (htarget.symm.trans h.target) (by simp)
  | chats hk' | readies hk' | unreadies hk' => exact hother (hkind (by simp [hk'])) rfl (by simp)
  | starts hk' hsender hall r s' es hstart =>
    exact hother (hkind (by simp [hk'])) hstart.reports_eq_nil (by simp [hstart.entries])
  | chooses hk' hsender r s' es hchosen =>
    have hno := hkind (by simp [hk'])
    cases hchosen with
    | starts hcur hnext r s' es hturn =>
      have hrecords : s'.records = (s.withPlayer (S.id p) (·.chosen p)).records := by
        unfold Server.records
        rw [hturn.players]
      have hreports := hturn.reports_eq_nil
      refine .all ?_ (s.withPlayer (S.id p) (·.chosen p)) (by simp)
      simp [Effect.report?, Message.isReport, hreports, hrecords]
    | _ => exact hother hno (by simp [Effect.report?]) (by simp)
  | acts hk' hsender id player htarget hp r s' es hturn =>
    exact reports_acts S c p id player hp hturn

/-- Only an answer reports anything. -/
theorem Handled.answer_of_reports (h : Handled S c p s r s' es) (hreports : reports es ≠ []) :
    p.kind = some .cJobChosen ∨ p.kind = some .cActionTaken := by
  cases h with
  | chooses hk => exact .inl hk
  | acts hk => exact .inr hk
  | joins hk =>
    refine absurd ?_ hreports
    split <;> simp [Effect.report?]
  | starts hk hsender hall r s' es hstart => exact absurd hstart.reports_eq_nil hreports
  | _ => exact absurd rfl hreports

/-- A packet's reports come before the turn it hands out. -/
theorem Handled.reports_before_turns (h : Handled S c p s r s' es) :
    ∃ pre post, es = pre ++ post ∧ turns pre = [] ∧ reports post = [] := by
  cases h with
  | chooses hk hsender r s' es hchosen =>
    cases hchosen with
    | starts hcur hnext r s' es hturn =>
      exact ⟨[_, _, _], es, rfl, by simp, hturn.reports_eq_nil⟩
    | _ => exact ⟨[], _, rfl, rfl, by simp [Effect.report?]⟩
  | acts hk hsender id player htarget hp r s' es hturn =>
    refine ⟨actionReport S c p s id player ++ [⟨.enter .nextTurn, s.acted S c p id⟩], es,
      by simp, by simp, hturn.reports_eq_nil⟩
  | starts hk hsender hall r s' es hstart => exact ⟨[], es, rfl, rfl, hstart.reports_eq_nil⟩
  | joins hk =>
    refine ⟨[], if S.expectedPlayers < s.totalConnections.toUInt32 then
      [⟨.closeConnection p.systemAddress, s⟩] else [], rfl, rfl, ?_⟩
    split <;> simp [Effect.report?]
  | _ => exact ⟨[], [], rfl, rfl, rfl⟩

/-- Into the main game leads only `StartMainGame`. -/
theorem Handled.main_entered (h : Handled S c p s r s' es) :
    (s'.gameState = .gsMain → s.gameState = .gsMain ∨ ∃ t, (.startMainGame, t) ∈ entries es) ∧
      ∀ t ∈ turns es, t.2.gameState = .gsMain →
        s.gameState = .gsMain ∨ ∃ t, (.startMainGame, t) ∈ entries es := by
  cases h with
  | starts hk hsender hall r s' es hstart =>
    cases hstart <;> simp [Server.started]
  | chooses hk hsender r s' es hchosen =>
    cases hchosen with
    | starts hcur hnext r s' es hturn =>
      refine ⟨fun _ ↦ .inr ?_, fun _ _ _ ↦ .inr ?_⟩ <;>
        exact ⟨s.withPlayer (S.id p) (·.chosen p), by simp⟩
    | _ => exact ⟨.inl, by simp⟩
  | acts hk hsender id player htarget hp r s' es hturn =>
    have hmain : (s'.gameState = .gsMain → s.gameState = .gsMain) ∧
        ∀ t ∈ turns es, t.2.gameState = .gsMain → s.gameState = .gsMain := by
      cases hturn <;> simp
    refine ⟨fun h ↦ .inl (hmain.1 h), fun t ht h ↦ .inl (hmain.2 t ?_ h)⟩
    simpa using ht
  | joins hk =>
    refine ⟨.inl, ?_⟩
    split <;> simp
  | _ => exact ⟨.inl, by simp⟩

end

/-- Following the reports of a packet leads from the server's table to its table after it;
those of `StartMainGame` do so from any table. -/
theorem Reports.follow {s s' : Server} {es : List Effect} (h : Reports s s' es)
    (hd : DistinctNames s) (table : Table)
    (htable : (∀ t, (.startMainGame, t) ∉ entries es) → table = s.table) :
    table.follow (reports es) = s'.table := by
  cases h with
  | nothing hreports hmain g hg hplayers =>
    rw [hreports, s.table_mapVal s' hd g hg hplayers]
    exact htable hmain
  | hit id player diff hp hplayers hreports hmain =>
    rw [hreports, s.table_struck s' hd id player diff hp hplayers, ← htable hmain]
    rfl
  | all hreports t hmain =>
    rw [hreports]
    rfl

end RRPG
