import MiniDebugger.Debugger.State

/-!
# `lowlevel`: the ptrace requests

Each request first draws its fate from `faults`. Memory is accessed a word at a time, so that
reading or writing one byte also needs the seven bytes above it to be mapped; `wp_writeByte` and
`wp_readByte` say what that amounts to for the byte itself.
-/

namespace MiniDebugger

open Command
open Function (update)

namespace Lowlevel

/-- Take the next ptrace result. -/
def attempt (operation : String) : Act Unit := fun s =>
  match s.faults with
  | [] => .returned () s
  | none :: rest => .returned () { s with faults := rest }
  | some errno :: rest => .raised (.ptraceError operation errno) { s with faults := rest }

def modifyWorld (f : World → World) : Act Unit := update fun s => { s with world := f s.world }

/-- The address space a task runs in. -/
def space (w : World) (tid : Pid) : Pid := (w.tasks[tid]?).getD tid

def detach (tid : Pid) (signal : Nat := 0) : Act Unit := do
  attempt "PTRACE_DETACH"
  modifyWorld fun w => { w with
    tasks := w.tasks.erase tid
    requests := .detach tid signal :: w.requests }

def kill (pid : Pid) : Act Unit :=
  modifyWorld fun w => { w with requests := .kill pid :: w.requests }

def setOptions (_tid : Pid) : Act Unit := attempt "PTRACE_SETOPTIONS"

def getEventMessage (tid : Pid) : Act Nat := do
  attempt "PTRACE_GETEVENTMSG"
  read fun s => s.world.message tid

def resume (kind : ResumeKind) (operation : String) (tid : Pid) (signal : Nat) : Act Unit := do
  attempt operation
  modifyWorld fun w => { w with
    mode := update w.mode tid (some kind)
    requests := .resume kind tid signal :: w.requests }

def continueProcess (tid : Pid) (signal : Nat := 0) : Act Unit :=
  resume .cont "PTRACE_CONT" tid signal

def singleStep (tid : Pid) (signal : Nat := 0) : Act Unit :=
  resume .step "PTRACE_SINGLESTEP" tid signal

def getRegisters (tid : Pid) : Act UserRegs := do
  attempt "PTRACE_GETREGS"
  read fun s => s.world.regs tid

def setRegisters (tid : Pid) (regs : UserRegs) : Act Unit := do
  attempt "PTRACE_SETREGS"
  modifyWorld fun w => { w with regs := update w.regs tid regs }

def getDebugRegister (tid : Pid) (index : Nat) : Act Word := do
  attempt "PTRACE_PEEKUSER"
  read fun s => s.world.debug tid index

def setDebugRegister (tid : Pid) (index : Nat) (value : Word) : Act Unit := do
  attempt "PTRACE_POKEUSER"
  modifyWorld fun w => { w with
    debug := update w.debug tid (update (w.debug tid) index value) }

def peekWord (tid : Pid) (address : Addr) : Act (List Byte) := do
  attempt "PTRACE_PEEKDATA"
  let memory ← read fun s => s.world.memory (space s.world tid)
  if accessible memory address then return (wordAt memory address).map (·.getD 0)
  else raise (.ptraceError "PTRACE_PEEKDATA" eio)

/-- Store the bytes of a word from `address` upwards. -/
def storeWord (m : Memory) (address : Addr) (word : List Byte) : Memory := fun a =>
  if (a - address).toNat < word.length then word[(a - address).toNat]? else m a

def pokeWord (tid : Pid) (address : Addr) (word : List Byte) : Act Unit := do
  attempt "PTRACE_POKEDATA"
  let memory ← read fun s => s.world.memory (space s.world tid)
  if accessible memory address then
    modifyWorld fun w => { w with
      memory := update w.memory (space w tid) (storeWord memory address word) }
  else raise (.ptraceError "PTRACE_POKEDATA" eio)

def readByte (tid : Pid) (address : Addr) : Act Byte := do
  return (← peekWord tid address).headD 0

/-- Replace the lowest byte of the word at `address`. -/
def writeByte (tid : Pid) (address : Addr) (value : Byte) : Act Unit := do
  let current ← peekWord tid address
  pokeWord tid address (current.set 0 value)

/-- Read `length` bytes, word by word. -/
def readMemory (tid : Pid) (address : Addr) (length : Nat) : Act (List Byte) :=
  let rec words : Nat → Nat → Act (List Byte)
    | 0, _ => return []
    | n + 1, offset => do
      let word ← peekWord tid (address + BitVec.ofNat 64 offset)
      let rest ← words n (offset + 8)
      return word.take (min 8 (length - offset)) ++ rest
  words ((length + 7) / 8) 0

/-! ## What the requests do -/

section Rules

variable {s : Session} {tid : Pid}

theorem wp_attempt_tail {operation : String} {Q : Post WaitCall Exception Session Unit}
    (returned : s.nextFails = false → Q.returned () { s with faults := s.faults.tail })
    (raised : s.nextFails = true → ∀ errno,
      Q.raised (.ptraceError operation errno) { s with faults := s.faults.tail }) :
    wp (attempt operation) Q s := by
  unfold wp attempt
  unfold Session.nextFails at returned raised
  rcases hf : s.faults with _ | ⟨_ | errno, rest⟩
  · have := returned (by rw [hf])
    rwa [hf, List.tail_nil, ← hf] at this
  · have := returned (by rw [hf])
    rwa [hf] at this
  · have := raised (by rw [hf]) errno
    rwa [hf] at this

theorem wp_attempt {operation : String} {Q : Post WaitCall Exception Session Unit}
    (returned : ∀ faults, Q.returned () { s with faults })
    (raised : ∀ faults errno, Q.raised (.ptraceError operation errno) { s with faults }) :
    wp (attempt operation) Q s :=
  wp_attempt_tail (fun _ => returned _) fun _ errno => raised _ errno

@[simp] theorem wp_modifyWorld (f : World → World) (Q : Post WaitCall Exception Session Unit) :
    wp (modifyWorld f) Q s = Q.returned () { s with world := f s.world } := rfl

theorem wp_detach {signal : Nat} {Q : Post WaitCall Exception Session Unit}
    (returned : ∀ faults, Q.returned () { s with
      faults
      world := { s.world with
        tasks := s.world.tasks.erase tid
        requests := .detach tid signal :: s.world.requests } })
    (raised : ∀ faults e, e.isPtraceError = true → Q.raised e { s with faults }) :
    wp (detach tid signal) Q s := by
  unfold detach
  rw [wp_bind]
  exact wp_attempt returned fun faults errno => raised faults _ rfl

theorem wp_getEventMessage_tail {Q : Post WaitCall Exception Session Nat}
    (returned : s.nextFails = false →
      Q.returned (s.world.message tid) { s with faults := s.faults.tail })
    (raised : s.nextFails = true → ∀ e, e.isPtraceError = true →
      Q.raised e { s with faults := s.faults.tail }) :
    wp (getEventMessage tid) Q s := by
  unfold getEventMessage
  rw [wp_bind]
  exact wp_attempt_tail returned fun hfails errno => raised hfails _ rfl

theorem wp_getEventMessage {Q : Post WaitCall Exception Session Nat}
    (returned : ∀ faults, Q.returned (s.world.message tid) { s with faults })
    (raised : ∀ faults e, e.isPtraceError = true → Q.raised e { s with faults }) :
    wp (getEventMessage tid) Q s :=
  wp_getEventMessage_tail (fun _ => returned _) fun _ e he => raised _ e he

theorem wp_resume {kind : ResumeKind} {operation : String} {signal : Nat}
    {Q : Post WaitCall Exception Session Unit}
    (returned : ∀ faults, Q.returned () { s with
      faults
      world := { s.world with
        mode := update s.world.mode tid (some kind)
        requests := .resume kind tid signal :: s.world.requests } })
    (raised : ∀ faults e, e.isPtraceError = true → Q.raised e { s with faults }) :
    wp (resume kind operation tid signal) Q s := by
  unfold resume
  rw [wp_bind]
  exact wp_attempt returned fun faults errno => raised faults _ rfl

theorem wp_getRegisters {Q : Post WaitCall Exception Session UserRegs}
    (returned : ∀ faults, Q.returned (s.world.regs tid) { s with faults })
    (raised : ∀ faults e, e.isPtraceError = true → Q.raised e { s with faults }) :
    wp (getRegisters tid) Q s := by
  unfold getRegisters
  rw [wp_bind]
  exact wp_attempt returned fun faults errno => raised faults _ rfl

theorem wp_setRegisters {regs : UserRegs} {Q : Post WaitCall Exception Session Unit}
    (returned : ∀ faults, Q.returned () { s with
      faults, world := { s.world with regs := update s.world.regs tid regs } })
    (raised : ∀ faults e, e.isPtraceError = true → Q.raised e { s with faults }) :
    wp (setRegisters tid regs) Q s := by
  unfold setRegisters
  rw [wp_bind]
  exact wp_attempt returned fun faults errno => raised faults _ rfl

theorem quiet_attempt (operation : String) : Quiet (attempt operation) := by
  intro s
  exact wp_attempt (fun faults => ⟨faults, s.sequence, s.world.debug, rfl⟩)
    (fun faults errno => ⟨⟨faults, s.sequence, s.world.debug, rfl⟩, rfl⟩)

theorem quiet_setOptions (tid : Pid) : Quiet (setOptions tid) := quiet_attempt _

theorem quiet_getDebugRegister (tid : Pid) (index : Nat) : Quiet (getDebugRegister tid index) :=
  (quiet_attempt _).bind fun _ => Within.read _

theorem quiet_setDebugRegister (tid : Pid) (index : Nat) (value : Word) :
    Quiet (setDebugRegister tid index value) :=
  (quiet_attempt _).bind fun _ => Within.update fun s => ⟨s.faults, s.sequence, _, rfl⟩

/-- An accessible word determines its lowest byte. -/
theorem mapped_of_accessible {m : Memory} {a : Addr} (h : accessible m a = true) :
    ∃ b, m a = some b := by
  have : (m a).isSome = true := by
    simp only [accessible, wordAt, Bool.and_eq_true, List.all_eq_true, List.mem_map,
      List.mem_range] at h
    exact h.2 _ ⟨0, by omega, by simp⟩
  exact Option.isSome_iff_exists.mp this

theorem bound_of_accessible {m : Memory} {a : Addr} (h : accessible m a = true) :
    a.toNat + 8 ≤ 2 ^ 64 := by
  simp only [accessible, Bool.and_eq_true, decide_eq_true_eq] at h
  exact h.1

/-- Storing a word with only its lowest byte changed changes that byte. -/
theorem storeWord_set {m : Memory} {a : Addr} {value : Byte} (h : accessible m a = true) :
    storeWord m a (((wordAt m a).map (·.getD 0)).set 0 value) = update m a (some value) := by
  funext x
  have hlen : (((wordAt m a).map (·.getD 0)).set 0 value).length = 8 := by simp [wordAt]
  by_cases hx : x = a
  · subst hx
    simp [storeWord, wordAt, List.range_succ]
  · rw [Function.update_of_ne hx]
    have hne : (x - a).toNat ≠ 0 := by bv_omega
    by_cases hlt : (x - a).toNat < 8
    · have hback : a + BitVec.ofNat 64 (x - a).toNat = x := by bv_omega
      have hmem : (m x).isSome = true := by
        simp only [accessible, wordAt, Bool.and_eq_true, List.all_eq_true, List.mem_map,
          List.mem_range] at h
        exact h.2 _ ⟨(x - a).toNat, hlt, by rw [hback]⟩
      obtain ⟨b, hb⟩ := Option.isSome_iff_exists.mp hmem
      rw [storeWord, if_pos (by omega), List.getElem?_set_ne (by omega), List.getElem?_map,
        wordAt, List.getElem?_map, List.getElem?_range hlt]
      simp only [Option.map_some, hback, hb, Option.getD_some]
    · rw [storeWord, if_neg (by omega)]

theorem wp_peekWord {address : Addr} {Q : Post WaitCall Exception Session (List Byte)}
    (returned : accessible (s.world.memory (space s.world tid)) address = true → ∀ faults,
      Q.returned ((wordAt (s.world.memory (space s.world tid)) address).map (·.getD 0))
        { s with faults })
    (raised : ∀ faults e, e.isPtraceError = true → Q.raised e { s with faults }) :
    wp (peekWord tid address) Q s := by
  unfold peekWord
  rw [wp_bind]
  refine wp_attempt (fun faults => ?_) (fun faults errno => raised faults _ rfl)
  simp only [wp_bind, wp_read, wp_ite, wp_pure, wp_raise]
  split
  · exact returned ‹_› faults
  · exact raised faults _ rfl

theorem wp_readByte {address : Addr} {Q : Post WaitCall Exception Session Byte}
    (returned : ∀ faults b, accessible (s.world.memory (space s.world tid)) address = true →
      s.world.memory (space s.world tid) address = some b → Q.returned b { s with faults })
    (raised : ∀ faults e, e.isPtraceError = true → Q.raised e { s with faults }) :
    wp (readByte tid address) Q s := by
  unfold readByte
  rw [wp_bind]
  refine wp_peekWord (fun hacc faults => ?_) raised
  obtain ⟨b, hb⟩ := mapped_of_accessible hacc
  have := returned faults b hacc hb
  simpa [wordAt, List.range_succ, hb] using this

theorem wp_writeByte {address : Addr} {value : Byte} {Q : Post WaitCall Exception Session Unit}
    (returned : ∀ faults, accessible (s.world.memory (space s.world tid)) address = true →
      Q.returned () { s with
        faults
        world := { s.world with
          memory := update s.world.memory (space s.world tid)
            (update (s.world.memory (space s.world tid)) address (some value)) } })
    (raised : ∀ faults e, e.isPtraceError = true → Q.raised e { s with faults }) :
    wp (writeByte tid address value) Q s := by
  unfold writeByte
  rw [wp_bind]
  refine wp_peekWord (fun hacc faults => ?_) raised
  dsimp only
  unfold pokeWord
  rw [wp_bind]
  refine wp_attempt (fun faults => ?_) (fun faults errno => raised faults _ rfl)
  simp only [wp_bind, wp_read, wp_ite, wp_modifyWorld]
  rw [if_pos hacc, storeWord_set hacc]
  exact returned faults hacc

end Rules

end Lowlevel

end MiniDebugger
