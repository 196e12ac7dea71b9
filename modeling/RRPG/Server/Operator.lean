import RRPG.Base.Buffer
import RRPG.Base.Lines
import RRPG.Base.While
import RRPG.Server.Primitives

/-!
# The operator

What the server does with its console: `Start` reads a port and looks for a free one from
there on, as the client does for its own, and `InputHandler` reads lines until it is told to quit.
-/

open RRPG.Base RRPG.Base.Handler

namespace RRPG

/-! ### The port -/

/-- The port as `IsPortInUse` takes it and as `GameLoop` stores it in the socket descriptor:
both are `unsigned short`, the member `port` is `unsigned int`. -/
def shortPort (port : UInt32) : UInt16 := port.toUInt16

/-- The loop in `Start`: count up while the port is in use. After `2 ^ 16` passes every port
has been tried, so that running out of them means that the loop never ends. -/
def findPort (isPortInUse : UInt16 → Bool) (port : UInt32) : Option UInt32 :=
  runWhile (fun port ↦ isPortInUse (shortPort port)) (· + 1) (2 ^ 16) port

/-- `Start` leaves a port that is the one the server listens on, and that nobody else uses. -/
def ListensAsPrinted (isPortInUse : UInt16 → Bool) (port : UInt32) : Prop :=
  ∃ found, findPort isPortInUse port = some found ∧ found.toNat = (shortPort found).toNat ∧
    isPortInUse (shortPort found) = false

/-- The port read is one, and one from there on is free; or it is so large that the counter
starts again at zero before it comes to a free port. -/
def PortInReach (isPortInUse : UInt16 → Bool) (port : UInt32) : Prop :=
  (port.toNat < 2 ^ 16 ∧ ∃ free, isPortInUse free = false ∧ port.toNat ≤ free.toNat) ∨
  (2 ^ 32 - 2 ^ 16 ≤ port.toNat ∧
    ∀ above, shortPort port ≤ above → isPortInUse above = true)

theorem toNat_iterate_succ (n : Nat) (port : UInt32) :
    ((· + 1)^[n] port).toNat = (port.toNat + n) % 2 ^ 32 := by
  induction n with
  | zero => simp [Nat.mod_eq_of_lt port.toNat_lt]
  | succ n ih =>
    rw [Function.iterate_succ_apply', UInt32.toNat_add, ih]
    simp only [UInt32.toNat_one]
    omega

theorem toNat_shortPort (port : UInt32) : (shortPort port).toNat = port.toNat % 2 ^ 16 := by
  simp [shortPort]

/-- The ports tried follow one another round all of them. -/
theorem toNat_shortPort_iterate (n : Nat) (port : UInt32) :
    (shortPort ((· + 1)^[n] port)).toNat = (port.toNat + n) % 2 ^ 16 := by
  rw [toNat_shortPort, toNat_iterate_succ]
  omega

section
variable {isPortInUse : UInt16 → Bool}

/-- Every free port is tried after fewer than `2 ^ 16` passes. -/
theorem exists_pass (port : UInt32) (free : UInt16) :
    ∃ n < 2 ^ 16, shortPort ((· + 1)^[n] port) = free ∧
      (port.toNat + n) % 2 ^ 16 = free.toNat := by
  have hfree := free.toNat_lt
  refine ⟨(free.toNat + 2 ^ 16 - port.toNat % 2 ^ 16) % 2 ^ 16, Nat.mod_lt _ (by decide), ?_, ?_⟩
  · apply UInt16.toNat_inj.mp
    rw [toNat_shortPort_iterate]
    omega
  · omega

/-- With a port free the loop ends, at the first free one round from where it started. -/
theorem findPort_first (port : UInt32) (hfree : ∃ free, isPortInUse free = false) :
    ∃ n < 2 ^ 16, findPort isPortInUse port = some ((· + 1)^[n] port) ∧
      isPortInUse (shortPort ((· + 1)^[n] port)) = false ∧
      ∀ m < n, isPortInUse (shortPort ((· + 1)^[m] port)) = true := by
  obtain ⟨free, hfree⟩ := hfree
  obtain ⟨k, hk, hshort, _⟩ := exists_pass port free
  have hstop : isPortInUse (shortPort ((· + 1)^[k] port)) = false := by rw [hshort, hfree]
  cases hfound : findPort isPortInUse port with
  | none =>
    have hpass := (runWhile_eq_none _ _ _ _).mp hfound k (by omega)
    exact absurd (hstop.symm.trans hpass) Bool.false_ne_true
  | some found =>
    obtain ⟨n, _, hbefore, hlast, rfl⟩ := (runWhile_eq_some _ _ _ _ _).mp hfound
    have hle : n ≤ k := by
      by_contra hlt
      have hpass := hbefore k (by omega)
      exact absurd (hstop.symm.trans hpass) Bool.false_ne_true
    exact ⟨n, by omega, rfl, hlast, hbefore⟩

/-- The port found is printed as it is listened on if it is one of the lowest `2 ^ 16`
numbers. -/
theorem listensAsPrinted_iff_lt (n : Nat) (port : UInt32)
    (hfound : findPort isPortInUse port = some ((· + 1)^[n] port))
    (hstop : isPortInUse (shortPort ((· + 1)^[n] port)) = false) :
    ListensAsPrinted isPortInUse port ↔ (port.toNat + n) % 2 ^ 32 < 2 ^ 16 := by
  have hshort := toNat_shortPort ((· + 1)^[n] port)
  have hcount := toNat_iterate_succ n port
  constructor
  · rintro ⟨found, hfound', hsame, _⟩
    obtain rfl := Option.some.inj (hfound.symm.trans hfound')
    omega
  · intro hsmall
    exact ⟨_, hfound, by omega, hstop⟩

/-- The first free port that is tried is among the lowest `2 ^ 16` numbers exactly when the
port read is one from which there is a free one on, or the counter starts again first. -/
theorem portInReach_iff_lt (n : Nat) (port : UInt32) (hn : n < 2 ^ 16)
    (hstop : isPortInUse (shortPort ((· + 1)^[n] port)) = false)
    (hbefore : ∀ m < n, isPortInUse (shortPort ((· + 1)^[m] port)) = true) :
    PortInReach isPortInUse port ↔ (port.toNat + n) % 2 ^ 32 < 2 ^ 16 := by
  have hport := port.toNat_lt
  have hlast := toNat_shortPort_iterate n port
  have hfirst (free : UInt16) (hfree : isPortInUse free = false) :
      ∃ k, n ≤ k ∧ k < 2 ^ 16 ∧ (port.toNat + k) % 2 ^ 16 = free.toNat := by
    obtain ⟨k, hk, hshort, hmod⟩ := exists_pass port free
    refine ⟨k, ?_, hk, hmod⟩
    by_contra hlt
    have hpass := hbefore k (by omega)
    rw [hshort, hfree] at hpass
    cases hpass
  constructor
  · rintro (⟨hlow, free, hfree, hle⟩ | ⟨hhigh, habove⟩)
    · obtain ⟨k, hk, hlt, hmod⟩ := hfirst free hfree
      have := free.toNat_lt
      omega
    · by_contra hlarge
      have hused := habove _ (UInt16.le_iff_toNat_le.mpr (by
        rw [hlast, toNat_shortPort]
        omega))
      rw [hstop] at hused
      cases hused
  · intro hsmall
    by_cases hlow : port.toNat < 2 ^ 16
    · exact .inl ⟨hlow, _, hstop, by omega⟩
    · refine .inr ⟨by omega, ?_⟩
      intro above habove
      rw [UInt16.le_iff_toNat_le, toNat_shortPort] at habove
      by_contra hno
      obtain ⟨k, hk, hlt, hmod⟩ := hfirst above (by simpa using hno)
      have := above.toNat_lt
      omega

/-- Whatever port is read and whichever others are taken, the loop ends with a port that is
free as the socket sees it; the number printed is that port exactly when it is in reach. -/
theorem listensAsPrinted_iff (port : UInt32) (hfree : ∃ free, isPortInUse free = false) :
    (∃ found, findPort isPortInUse port = some found ∧
      isPortInUse (shortPort found) = false) ∧
    (ListensAsPrinted isPortInUse port ↔ PortInReach isPortInUse port) := by
  obtain ⟨n, hn, hfound, hstop, hbefore⟩ := findPort_first port hfree
  refine ⟨⟨_, hfound, hstop⟩, ?_⟩
  rw [listensAsPrinted_iff_lt n port hfound hstop, portInReach_iff_lt n port hn hstop hbefore]

end

/-- The loop in the client's `GameLoop`, over the port of the socket descriptor: that of the
member `clientPort`, an `unsigned int`, as `unsigned short`. -/
def findClientPort (isPortInUse : UInt16 → Bool) (clientPort : UInt32) : Option UInt16 :=
  runWhile isPortInUse (· + 1) (2 ^ 16) (shortPort clientPort)

/-- The client finds the port the server would, as the socket sees it. -/
theorem findClientPort_eq (isPortInUse : UInt16 → Bool) (clientPort : UInt32) :
    findClientPort isPortInUse clientPort = (findPort isPortInUse clientPort).map shortPort := by
  rw [findPort, runWhile_map shortPort _ _ isPortInUse (· + 1) (fun _ ↦ rfl) fun port ↦ ?_]
  · rfl
  · apply UInt16.toNat_inj.mp
    rw [toNat_shortPort, UInt16.toNat_add, UInt32.toNat_add, toNat_shortPort, UInt16.toNat_one,
      UInt32.toNat_one]
    omega

/-- The client's search ends exactly when some port is free, at the first one counting round from
the port entered; and the server's search from there ends at the same port. -/
theorem findClientPort_spec (isPortInUse : UInt16 → Bool) (clientPort : UInt32) :
    findClientPort isPortInUse clientPort = (findPort isPortInUse clientPort).map shortPort ∧
    (findClientPort isPortInUse clientPort = none ↔
      ¬ Terminates isPortInUse (· + 1) (shortPort clientPort)) ∧
    (Terminates isPortInUse (· + 1) (shortPort clientPort) ↔ ∃ free, isPortInUse free = false) ∧
    ∀ found, findClientPort isPortInUse clientPort = some found →
      isPortInUse found = false ∧ ∃ n < 2 ^ 16,
        found.toNat = (clientPort.toNat + n) % 2 ^ 16 ∧
        ∀ port : UInt16, (∃ m < n, port.toNat = (clientPort.toNat + m) % 2 ^ 16) →
          isPortInUse port = true := by
  have heq := findClientPort_eq isPortInUse clientPort
  have hnone : findClientPort isPortInUse clientPort = none → ∀ port, isPortInUse port = true := by
    intro hnone port
    by_contra hport
    obtain ⟨n, _, hfound, _⟩ := findPort_first clientPort ⟨port, by simpa using hport⟩
    simp [heq, hfound] at hnone
  have hends : Terminates isPortInUse (· + 1) (shortPort clientPort) ↔
      ∃ free, isPortInUse free = false := by
    refine ⟨fun ⟨n, hn⟩ ↦ ⟨_, hn⟩, fun ⟨free, hfree⟩ ↦ (terminates_iff _ _ _).mpr ?_⟩
    cases hfound : findClientPort isPortInUse clientPort with
    | none => exact absurd (hfree.symm.trans (hnone hfound free)) Bool.false_ne_true
    | some found => exact ⟨_, found, hfound⟩
  refine ⟨heq, ?_, hends, fun found hfound ↦ ?_⟩
  · rw [hends]
    constructor
    · rintro h ⟨free, hfree⟩
      exact absurd (hfree.symm.trans (hnone h free)) Bool.false_ne_true
    · intro h
      exact (runWhile_eq_none _ _ _ _).mpr fun n _ ↦ by_contra fun hn ↦ h ⟨_, by simpa using hn⟩
  · have hfree : ∃ free, isPortInUse free = false :=
      hends.mp ((terminates_iff _ _ _).mpr ⟨_, found, hfound⟩)
    obtain ⟨n, hn, hserver, hstop, hbefore⟩ := findPort_first clientPort hfree
    rw [heq, hserver, Option.map_some, Option.some_inj] at hfound
    subst hfound
    refine ⟨hstop, n, hn, toNat_shortPort_iterate n clientPort, ?_⟩
    rintro port ⟨m, hm, hport⟩
    have hsame : port = shortPort ((· + 1)^[m] clientPort) := by
      apply UInt16.toNat_inj.mp
      rw [hport, toNat_shortPort_iterate]
    exact hsame ▸ hbefore m hm

/-- Nobody uses a port but the last one. -/
def lastPortTaken (port : UInt16) : Bool := port == 65535

/-- Port 5000 is free, and printed and listened on. -/
theorem freePort_listens : ListensAsPrinted lastPortTaken 5000 :=
  (listensAsPrinted_iff 5000 ⟨0, rfl⟩).2.mpr (.inl ⟨by decide, 5000, rfl, by decide⟩)

/-- Behind the last port the server prints 65536 and listens on 0. -/
theorem lastPort_misprinted : (∃ free, lastPortTaken free = false) ∧
    findPort lastPortTaken 65535 = some 65536 ∧ shortPort 65536 = 0 ∧
    ¬ ListensAsPrinted lastPortTaken 65535 := by
  have hfound : findPort lastPortTaken 65535 = some 65536 := by
    apply (runWhile_eq_some _ _ _ _ _).mpr
    refine ⟨1, by omega, ?_, by decide, rfl⟩
    intro m hm
    obtain rfl : m = 0 := by omega
    decide
  refine ⟨⟨0, rfl⟩, hfound, rfl, ?_⟩
  rintro ⟨found, hfound', hsame, _⟩
  obtain rfl := Option.some.inj (hfound.symm.trans hfound')
  exact absurd hsame (by decide)

/-! ### The console -/

def newline : UInt8 := 10

def quit : Bytes := ascii ".quit"

/-- What `input == ".quit"` in `InputHandler` compares: two arrays become pointers to their
first characters, and no two arrays start at the same place. -/
inductive CharArray where
  | input
  | quitLiteral
  deriving DecidableEq

/-- What `InputHandler` works on. -/
structure Operator where
  cin : InputStream UInt8
  isQuitting : Bool
  world : World

/-- The body of the loop in `InputHandler`. -/
def Operator.pass (o : Operator) : Operator :=
  let input := o.cin.getline newline 2048
  if CharArray.input = CharArray.quitLiteral then
    { o with cin := input.2, isQuitting := true }
  else
    { o with
      cin := input.2
      world := (exec (broadcastMessage (stringBefore 0 input.1)) o.world).2 }

/-- `Server::InputHandler`, one pass at a time. -/
def Operator.step (o : Operator) : Operator := if o.isQuitting then o else o.pass

/-- The operator has typed the lines, and nothing of them has been read. -/
def Operator.typing (lines : List Bytes) (w : World) : Operator :=
  ⟨⟨typed newline lines, true⟩, false, w⟩

/-- The lines that are to be broadcast. -/
def heard (lines : List Bytes) : List Bytes :=
  (lines.takeWhile (· ≠ quit)).filter (fun line ↦ line ≠ [] ∧ line.length ≤ 2047)

/-- Every line that is to be broadcast has been, in order, and nothing else; if the operator
has told the server to quit it does, and has read nothing more. -/
structure Done (w : World) (lines : List Bytes) (o : Operator) : Prop where
  broadcast : o.world =
    ⟨w.server, w.trace ++ (heard lines).flatMap (broadcastEffects w.server)⟩
  quits : o.isQuitting = decide (quit ∈ lines)
  unread : o.cin.unread = typed newline (lines.dropWhile (· ≠ quit)).tail

/-- All that is typed gets done, and nothing happens after that. -/
def DoesAsTyped (w : World) (lines : List Bytes) : Prop :=
  ∃ passes, ∀ n ≥ passes, Done w lines (Operator.step^[n] (.typing lines w))

/-- The command is never recognised, so that a pass broadcasts whatever it reads. -/
theorem Operator.step_running (cin : InputStream UInt8) (w : World) :
    Operator.step ⟨cin, false, w⟩ = ⟨(cin.getline newline 2048).2, false, w.server, w.trace ++
      broadcastEffects w.server (stringBefore 0 (cin.getline newline 2048).1)⟩ := by
  simp [Operator.step, Operator.pass]

theorem Operator.iterate_isQuitting (n : Nat) (o : Operator) (h : o.isQuitting = false) :
    (Operator.step^[n] o).isQuitting = false := by
  induction n with
  | zero => exact h
  | succ n ih =>
    rw [Function.iterate_succ_apply']
    rcases hn : Operator.step^[n] o with ⟨cin, isQuitting, w⟩
    rw [hn] at ih
    obtain rfl : isQuitting = false := ih
    rw [Operator.step_running]

/-- A failed stream stays failed, and nothing more is broadcast. -/
theorem Operator.step_failed (unread : Bytes) (w : World) :
    Operator.step ⟨⟨unread, false⟩, false, w⟩ = ⟨⟨unread, false⟩, false, w⟩ := by
  rw [Operator.step_running, InputStream.getline_failed]
  simp [stringBefore, broadcastEffects]

theorem Operator.iterate_failed (n : Nat) (unread : Bytes) (w : World) :
    Operator.step^[n] ⟨⟨unread, false⟩, false, w⟩ = ⟨⟨unread, false⟩, false, w⟩ :=
  Function.iterate_fixed (Operator.step_failed unread w) n

/-- When all has been read nothing more happens. -/
theorem Operator.iterate_end (n : Nat) (w : World) :
    ∃ good, Operator.step^[n] ⟨⟨[], true⟩, false, w⟩ = ⟨⟨[], good⟩, false, w⟩ := by
  cases n with
  | zero => exact ⟨true, rfl⟩
  | succ n =>
    refine ⟨false, ?_⟩
    rw [Function.iterate_succ_apply, Operator.step_running, InputStream.getline_end]
    simp [stringBefore, broadcastEffects, Operator.iterate_failed]

/-- A line for which there is room is read, and broadcast up to the first NUL. -/
theorem Operator.step_typing (line : Bytes) (lines : List Bytes) (w : World)
    (hline : newline ∉ line) (hlength : line.length ≤ 2047) :
    Operator.step (.typing (line :: lines) w) = .typing lines ⟨w.server,
      w.trace ++ broadcastEffects w.server (stringBefore 0 line)⟩ := by
  rw [Operator.typing, typed_cons, Operator.step_running,
    InputStream.getline_line newline line _ 2048 hline hlength]
  rfl

/-- A line for which there is no room fails the stream, and something is left of it. -/
theorem Operator.step_long (line : Bytes) (lines : List Bytes) (w : World)
    (hline : newline ∉ line) (hlength : 2047 < line.length) :
    ∃ unread w', unread ≠ [] ∧
      Operator.step (.typing (line :: lines) w) = ⟨⟨unread, false⟩, false, w'⟩ := by
  refine ⟨line.drop 2047 ++ newline :: typed newline lines, ⟨w.server, w.trace ++
    broadcastEffects w.server (stringBefore 0 (line.take 2047))⟩, by simp, ?_⟩
  rw [Operator.typing, typed_cons, Operator.step_running,
    InputStream.getline_long newline line _ 2048 hline hlength]

/-- Lines for which there is room are read one a pass. -/
theorem Operator.iterate_lines (lines : List Bytes) (w : World)
    (hline : ∀ line ∈ lines, newline ∉ line) (hlength : ∀ line ∈ lines, line.length ≤ 2047) :
    Operator.step^[lines.length] (.typing lines w) = .typing [] ⟨w.server, w.trace ++
      lines.flatMap fun line ↦ broadcastEffects w.server (stringBefore 0 line)⟩ := by
  induction lines generalizing w with
  | nil => simp [Operator.typing]
  | cons line lines ih =>
    rw [List.length_cons, Function.iterate_succ_apply,
      Operator.step_typing line lines w (hline line (.head _)) (hlength line (.head _)),
      ih _ (fun line h ↦ hline line (.tail _ h)) fun line h ↦ hlength line (.tail _ h)]
    simp [List.append_assoc]

/-- A line for which there is no room is never read to its end. -/
theorem Operator.iterate_stuck (lines : List Bytes) (w : World)
    (hline : ∀ line ∈ lines, newline ∉ line) (hlong : ∃ line ∈ lines, 2047 < line.length) :
    ∃ n unread w', unread ≠ [] ∧
      Operator.step^[n] (.typing lines w) = ⟨⟨unread, false⟩, false, w'⟩ := by
  induction lines generalizing w with
  | nil => simp at hlong
  | cons line lines ih =>
    have hfirst := hline line (.head _)
    by_cases hlength : 2047 < line.length
    · obtain ⟨unread, w', hne, hstuck⟩ := Operator.step_long line lines w hfirst hlength
      exact ⟨1, unread, w', hne, hstuck⟩
    · have hlater : ∃ line ∈ lines, 2047 < line.length := by
        simpa [hlength] using hlong
      have hstep := Operator.step_typing line lines w hfirst (by omega)
      obtain ⟨n, unread, w', hne, hstuck⟩ := ih _ (fun line h ↦ hline line (.tail _ h)) hlater
      refine ⟨n + 1, unread, w', hne, ?_⟩
      rw [Function.iterate_succ_apply, hstep, hstuck]

theorem mem_broadcastEffects (s : Server) (input : Bytes) (message : Bytes) (s' : Server) :
    ⟨.send .all (.text message), s'⟩ ∈ broadcastEffects s input ↔
      input ≠ [] ∧ s' = s ∧ message = ascii "[Server] " ++ input := by
  unfold broadcastEffects
  cases input with
  | nil => simp
  | cons c input => simp [and_comm]

/-- Lines for which there is room are broadcast as they are exactly when none has a NUL. -/
theorem flatMap_broadcastEffects_iff (s : Server) (lines : List Bytes)
    (hlength : ∀ line ∈ lines, line.length ≤ 2047) :
    (lines.filter fun line ↦ line ≠ [] ∧ line.length ≤ 2047).flatMap (broadcastEffects s) =
        lines.flatMap (fun line ↦ broadcastEffects s (stringBefore 0 line)) ↔
      ∀ line ∈ lines, 0 ∉ line := by
  constructor
  · intro h line hmem hnul
    have hne : line ≠ [] := List.ne_nil_of_mem hnul
    have hsent : (⟨.send .all (.text (ascii "[Server] " ++ line)), s⟩ : Effect) ∈
        (lines.filter fun line ↦ line ≠ [] ∧ line.length ≤ 2047).flatMap (broadcastEffects s) := by
      rw [List.mem_flatMap]
      exact ⟨line, by simp [hmem, hne, hlength],
        (mem_broadcastEffects _ _ _ _).mpr ⟨hne, rfl, rfl⟩⟩
    rw [h, List.mem_flatMap] at hsent
    obtain ⟨other, _, hother⟩ := hsent
    have hsame := List.append_cancel_left ((mem_broadcastEffects _ _ _ _).mp hother).2.2
    rw [hsame] at hnul
    exact not_mem_stringBefore 0 other hnul
  · intro h
    induction lines with
    | nil => rfl
    | cons line lines ih =>
      have htail := ih (fun line h ↦ hlength line (.tail _ h)) fun line hmem ↦ h line (.tail _ hmem)
      rw [List.flatMap_cons, (stringBefore_eq_self 0 line).mpr (h line (.head _)), ← htail]
      by_cases hne : line = []
      · simp [hne, broadcastEffects]
      · rw [List.filter_cons_of_pos (by simp [hne, hlength]), List.flatMap_cons]

/-- Where no line is the command, all of them come before it. -/
theorem takeWhile_ne_quit (lines : List Bytes) (h : quit ∉ lines) :
    lines.takeWhile (· ≠ quit) = lines ∧ lines.dropWhile (· ≠ quit) = [] := by
  have hwhole := (stringBefore_eq_self quit lines).mpr h
  exact ⟨hwhole, List.dropWhile_eq_nil_iff.mpr (List.takeWhile_eq_self_iff.mp hwhole)⟩

/-- Enough passes over lines for which there is room read all of them. -/
theorem Operator.iterate_typing (lines : List Bytes) (w : World)
    (hline : ∀ line ∈ lines, newline ∉ line) (hlength : ∀ line ∈ lines, line.length ≤ 2047)
    (n : Nat) : ∃ good, Operator.step^[n + lines.length] (.typing lines w) =
      ⟨⟨[], good⟩, false, w.server, w.trace ++
        lines.flatMap fun line ↦ broadcastEffects w.server (stringBefore 0 line)⟩ := by
  rw [Function.iterate_add_apply, Operator.iterate_lines lines w hline hlength, Operator.typing,
    typed_nil]
  exact Operator.iterate_end n _

/-- The server has not quit, so it was not told to. -/
theorem DoesAsTyped.quit_not_mem {w : World} {lines : List Bytes} (h : DoesAsTyped w lines) :
    quit ∉ lines := by
  obtain ⟨passes, hdone⟩ := h
  intro hmem
  have hquits := (hdone passes (Nat.le_refl _)).quits
  rw [Operator.iterate_isQuitting _ _ rfl] at hquits
  simp [hmem] at hquits

/-- All lines have been read, so there was room for each. -/
theorem DoesAsTyped.length_le {w : World} {lines : List Bytes} (h : DoesAsTyped w lines)
    (hline : ∀ line ∈ lines, newline ∉ line) : ∀ line ∈ lines, line.length ≤ 2047 := by
  have hdrop := (takeWhile_ne_quit lines h.quit_not_mem).2
  obtain ⟨passes, hdone⟩ := h
  intro line hmem
  by_contra hlong
  obtain ⟨n, unread, w', hne, hstuck⟩ :=
    Operator.iterate_stuck lines w hline ⟨line, hmem, by omega⟩
  have hunread := (hdone (passes + n) (Nat.le_add_right _ _)).unread
  rw [Function.iterate_add_apply, hstuck, Operator.iterate_failed, hdrop] at hunread
  exact hne hunread

/-- What is typed gets done exactly when no line is the command, every line fits the buffer,
and none has a NUL in it. -/
theorem doesAsTyped_iff (w : World) (lines : List Bytes)
    (hline : ∀ line ∈ lines, newline ∉ line) :
    DoesAsTyped w lines ↔
      ∀ line ∈ lines, line ≠ quit ∧ line.length ≤ 2047 ∧ 0 ∉ line := by
  constructor
  · intro h
    have hquit := h.quit_not_mem
    have hlength := h.length_le hline
    obtain ⟨passes, hdone⟩ := h
    have hread := (hdone (passes + lines.length) (Nat.le_add_right _ _)).broadcast
    obtain ⟨good, hall⟩ := Operator.iterate_typing lines w hline hlength passes
    rw [hall, heard, (takeWhile_ne_quit lines hquit).1] at hread
    have htrace := List.append_cancel_left (congrArg World.trace hread)
    have hnul := (flatMap_broadcastEffects_iff w.server lines hlength).mp htrace.symm
    intro line hmem
    refine ⟨?_, hlength line hmem, hnul line hmem⟩
    rintro rfl
    exact hquit hmem
  · intro hlines
    have hquit : quit ∉ lines := fun h ↦ (hlines quit h).1 rfl
    have hlength : ∀ line ∈ lines, line.length ≤ 2047 := fun line h ↦ (hlines line h).2.1
    obtain ⟨htake, hdrop⟩ := takeWhile_ne_quit lines hquit
    refine ⟨lines.length, ?_⟩
    intro n hn
    obtain ⟨m, rfl⟩ := Nat.exists_eq_add_of_le' hn
    obtain ⟨good, hall⟩ := Operator.iterate_typing lines w hline hlength m
    rw [hall]
    refine ⟨?_, ?_, ?_⟩
    · rw [heard, htake, (flatMap_broadcastEffects_iff w.server lines hlength).mpr
        fun line h ↦ (hlines line h).2.2]
    · simp [hquit]
    · rw [hdrop]
      rfl

/-- Two greetings with an empty line between them are both broadcast. -/
theorem greetings_broadcast :
    DoesAsTyped ⟨.init, []⟩ [ascii "hello", [], ascii "hello again"] :=
  (doesAsTyped_iff ⟨.init, []⟩ _ (by decide +kernel)).mpr (by decide +kernel)

/-- The command does not end the loop, and behind a line of 2048 characters nothing is read. -/
theorem quit_ignored : ¬ DoesAsTyped ⟨.init, []⟩ [quit] ∧
    ¬ DoesAsTyped ⟨.init, []⟩ [List.replicate 2048 97, ascii "hello"] := by
  constructor
  · intro h
    exact h.quit_not_mem (.head _)
  · intro h
    have hnewline : ∀ line ∈ [List.replicate 2048 97, ascii "hello"], newline ∉ line := by
      intro line hmem
      rw [List.mem_cons, List.mem_singleton] at hmem
      rcases hmem with rfl | rfl
      · intro hmem
        exact absurd (List.eq_of_mem_replicate hmem) (by decide)
      · decide
    have hlength := h.length_le hnewline (List.replicate 2048 97) (.head _)
    rw [List.length_replicate] at hlength
    omega

end RRPG
