import LS8.Machine.Step
/-! Runs: steps one after another, until the machine halts or fails, the stop button is found
pressed or the allowance is used up. `Run.extend` is the one loop; the three ways to run a machine
differ in the allowance and in whether the button is connected. A run that is over does not change
any more, so a run may be cut into parts anywhere (`extend_add`). -/

namespace LS8

/-- What a run is connected to: a printer and a stop button. Both may depend on the lines printed in
this run so far; the button may also depend on how many steps have been completed. -/
structure Console where
  /-- Why the printer refuses a line with this value after the lines so far, if it does. -/
  refusal : Array UInt8 → UInt8 → Option String
  /-- Whether the button is found pressed when it is looked at. -/
  stop : Nat → Array UInt8 → Bool

namespace Console

/-- Every line is taken and nobody presses the button. -/
def accepting : Console :=
  ⟨fun _ _ => none, fun _ _ => false⟩

/-- The printer refuses every line after the first `n`. -/
def closingAfter (n : Nat) (reason : String) (c : Console) : Console :=
  { c with refusal := fun lines v => if n ≤ lines.size then some reason else c.refusal lines v }

/-- The button is pressed by the line that makes at least `n`. -/
def stoppingAfter (n : Nat) (c : Console) : Console :=
  { c with stop := fun k lines => c.stop k lines || (0 < lines.size && n ≤ lines.size) }

def stopping (c : Console) : Console :=
  { c with stop := fun _ _ => true }

def unstoppable (c : Console) : Console :=
  { c with stop := fun _ _ => false }

end Console

/-- Why a run ended although its machine was still running. -/
inductive Ending where
  | stopped
  | failed (f : Fault)
deriving DecidableEq, Repr

/-- A run so far: the machine, how many instructions it has completed, what it has printed and
reported, and whether it was stopped or failed. -/
structure Run where
  machine : Machine
  count : Nat
  printed : Array UInt8
  log : Array Event
  ending : Option Ending
deriving DecidableEq, Repr

namespace Run

def start (m : Machine) : Run :=
  ⟨m, 0, #[], #[], none⟩

def isOver (r : Run) : Bool :=
  r.machine.isHalted || r.ending.isSome

def absorb (r : Run) (s : Step) : Run :=
  let r := { r with
    machine := s.machine, printed := r.printed ++ s.printed.toList, log := r.log ++ s.log }
  match s.result with
  | .ok _ => { r with count := r.count + 1 }
  | .error f => { r with ending := some (.failed f) }

def interrupt (r : Run) : Run :=
  { r with log := r.log.push (.stopped r.machine.regs.pc), ending := some .stopped }

/-- One turn: the button is looked at before the next instruction is fetched. -/
def advance (c : Console) (r : Run) : Run :=
  if c.stop r.count r.printed then r.interrupt
  else r.absorb (r.machine.step (c.refusal r.printed))

def extend (c : Console) : Nat → Run → Run
  | 0, r => r
  | n + 1, r => if r.isOver then r else extend c n (r.advance c)

def result (r : Run) : Except Fault Nat :=
  match r.ending with
  | some (.failed f) => .error f
  | _ => .ok r.count

/-- What was printed: each value in decimal digits on a line of its own. -/
def output (r : Run) : String :=
  r.printed.foldl (fun s v => s ++ s!"{v.toNat}\n") ""

theorem extend_of_isOver {r : Run} (h : r.isOver) (c : Console) (n : Nat) : r.extend c n = r := by
  cases n with
  | zero => rfl
  | succ n => simp [extend, h]

theorem extend_succ {r : Run} (h : r.isOver = false) (c : Console) (n : Nat) :
    r.extend c (n + 1) = (r.advance c).extend c n := by
  simp [extend, h]

theorem advance_of_stop {c : Console} {r : Run} (h : c.stop r.count r.printed = true) :
    r.advance c = r.interrupt := by
  rw [advance, h]
  rfl

theorem advance_of_not_stop {c : Console} {r : Run} (h : c.stop r.count r.printed = false) :
    r.advance c = r.absorb (r.machine.step (c.refusal r.printed)) := by
  rw [advance, h]
  rfl

/-- A run may be extended in parts. -/
theorem extend_add (c : Console) (a b : Nat) (r : Run) :
    r.extend c (a + b) = (r.extend c a).extend c b := by
  induction a generalizing r with
  | zero => simp [extend]
  | succ a ih =>
    by_cases h : r.isOver
    · simp [extend_of_isOver h]
    · have h : r.isOver = false := by simpa using h
      rw [Nat.add_right_comm, extend_succ h, extend_succ h, ih]

/-- The last of some turns, taken apart. -/
theorem extend_succ' (c : Console) (n : Nat) (r : Run) :
    r.extend c (n + 1) = if (r.extend c n).isOver then r.extend c n else (r.extend c n).advance c := by
  rw [extend_add, extend]
  rfl

end Run

namespace Machine

def maxCycles : Nat := UInt64.size - 1

/-- How many steps a run with a limit may take: no more than the limit, and no more than the cycle
counter has room for. -/
def allowance (cycles : UInt64) (limit : Option UInt64) : Nat :=
  min (limit.elim maxCycles UInt64.toNat) (maxCycles - cycles.toNat)

def runUntil (c : Console) (limit : Option UInt64) (m : Machine) : Run :=
  (Run.start m).extend c (allowance m.cycles limit)

def runLimited (c : Console) (limit : UInt64) (m : Machine) : Run :=
  m.runUntil c.unstoppable (some limit)

/-- Runs until the machine halts or fails. A step is still tried when the cycle counter stands at
its largest value, and the run ends there. -/
def run (c : Console) (m : Machine) : Run :=
  (Run.start m).extend c.unstoppable (maxCycles - m.cycles.toNat + 1)

end Machine

end LS8
