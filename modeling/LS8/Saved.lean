import LS8.Json
import LS8.Machine
/-! Saved machines. Each part of a machine has one form in which it is saved, and restoring accepts
more than that form: fields that it does not know are passed over, a record may also be the array of
all its fields in order, and a name may also be the one field of an object, with null in it. The
values of a record are judged one by one, by name in an object and by position in an array, and the
first that is malformed decides; only then is a missing value or a wrong number of them found.
Whatever is restored is a whole machine, in particular with 256 cells, and a machine that is saved
and restored is the same machine (`Machine.ofJson_toJson`). -/

namespace LS8

inductive Refusal where
  | malformed
  /-- A memory that is well-formed but for its number of cells. -/
  | cellCount (count : Nat)
deriving DecidableEq, Repr

def Refusal.message? : Refusal → Option String
  | malformed => none
  | cellCount count => some s!"memory has {count} cells, expected {Memory.size}"

namespace Saved

def natUpTo (max : Nat) : Json → Except Refusal Nat
  | .int (.ofNat n) => if n ≤ max then .ok n else .error .malformed
  | _ => .error .malformed

def byte (j : Json) : Except Refusal UInt8 :=
  (natUpTo 255 j).map UInt8.ofNat

def counter (j : Json) : Except Refusal UInt64 :=
  (natUpTo (UInt64.size - 1) j).map UInt64.ofNat

def bytes : Json → Except Refusal (List UInt8)
  | .arr items => items.mapM byte
  | _ => .error .malformed

def named {α : Type} (ofName? : String → Option α) (j : Json) : Except Refusal α :=
  let name? := match j with
    | .str s => some s
    | .obj [(s, .null)] => some s
    | _ => none
  match name?.bind ofName? with
  | some x => .ok x
  | none => .error .malformed

theorem named_str {α : Type} {ofName? : String → Option α} {s : String} {x : α}
    (h : ofName? s = some x) : named ofName? (.str s) = .ok x := by
  change (match ofName? s with | some x => _ | none => _) = _
  rw [h]

theorem natUpTo_of_le {max n : Nat} (h : n ≤ max) : natUpTo max (.int n) = .ok n :=
  if_pos h

@[simp] theorem byte_toNat (b : UInt8) : byte (.int b.toNat) = .ok b := by
  have := b.toNat_lt
  rw [byte, natUpTo_of_le (by omega)]
  simp [Except.map]

@[simp] theorem counter_toNat (n : UInt64) : counter (.int n.toNat) = .ok n := by
  rw [counter, natUpTo_of_le (Nat.le_sub_one_of_lt n.toNat_lt)]
  simp [Except.map]

@[simp] theorem bytes_ofBytes (bs : List UInt8) : bytes (.ofBytes bs) = .ok bs := by
  simp only [bytes, Json.ofBytes]
  induction bs with
  | nil => rfl
  | cons b bs ih => simp [List.mapM_cons, ih, bind, Except.bind, pure, Except.pure]

end Saved

namespace Opcode

def toJson (op : Opcode) : Json :=
  .str op.name

def ofJson (j : Json) : Except Refusal Opcode :=
  Saved.named ofName? j

@[simp] theorem ofJson_toJson (op : Opcode) : ofJson op.toJson = .ok op := by
  exact Saved.named_str (ofName?_name op)

end Opcode

namespace RunState

def ofName? (s : String) : Option RunState :=
  [running, halted].find? fun x => x.name == s

def toJson (s : RunState) : Json :=
  .str s.name

def ofJson (j : Json) : Except Refusal RunState :=
  Saved.named ofName? j

@[simp] theorem ofJson_toJson (s : RunState) : ofJson s.toJson = .ok s := by
  cases s <;> rfl

end RunState

namespace Flags

def toJson (f : Flags) : Json :=
  .int f.bits.toNat

def ofJson (j : Json) : Except Refusal Flags :=
  (Saved.byte j).map Flags.mk

@[simp] theorem ofJson_toJson (f : Flags) : ofJson f.toJson = .ok f := by
  simp [ofJson, toJson, Except.map]

end Flags

namespace Instruction

def toJson (i : Instruction) : Json :=
  .obj [("opcode", i.opcode.toJson), ("a", .int i.a.toNat), ("b", .int i.b.toNat)]

def ofJson : Json → Except Refusal Instruction
  | .obj fields => do
    let a? ← (fields.lookup "a").mapM Saved.byte
    let b? ← (fields.lookup "b").mapM Saved.byte
    let opcode? ← (fields.lookup "opcode").mapM Opcode.ofJson
    match opcode?, a?, b? with
    | some opcode, some a, some b => return ⟨opcode, a, b⟩
    | _, _, _ => throw .malformed
  | .arr [opcode, a, b] => do
    let opcode ← Opcode.ofJson opcode
    let a ← Saved.byte a
    let b ← Saved.byte b
    return ⟨opcode, a, b⟩
  | _ => throw .malformed

def lastOfJson : Json → Except Refusal (Option Instruction)
  | .null => .ok none
  | j => (ofJson j).map some

@[simp] theorem ofJson_toJson (i : Instruction) :
    ofJson i.toJson = .ok i := by
  simp [ofJson, toJson, List.lookup_cons, bind, Except.bind, pure, Except.pure,
    Functor.map, Except.map]

@[simp] theorem lastOfJson_toJson (last : Option Instruction) :
    lastOfJson (last.elim .null toJson) = .ok last := by
  cases last with
  | none => rfl
  | some i =>
    have : lastOfJson i.toJson = (ofJson i.toJson).map some := rfl
    simp [this, Except.map]

end Instruction

namespace Registers

def toJson (r : Registers) : Json :=
  .obj [("gp", .ofBytes r.gp.toList), ("pc", .int r.pc.toNat), ("fl", r.fl.toJson)]

def gpOfJson (j : Json) : Except Refusal (Vector UInt8 8) := do
  let values ← Saved.bytes j
  if h : values.toArray.size = 8 then return ⟨values.toArray, h⟩ else throw .malformed

def ofJson : Json → Except Refusal Registers
  | .obj fields => do
    let fl? ← (fields.lookup "fl").mapM Flags.ofJson
    let gp? ← (fields.lookup "gp").mapM gpOfJson
    let pc? ← (fields.lookup "pc").mapM Saved.byte
    match gp?, pc?, fl? with
    | some gp, some pc, some fl => return ⟨gp, pc, fl⟩
    | _, _, _ => throw .malformed
  | .arr [gp, pc, fl] => do
    let gp ← gpOfJson gp
    let pc ← Saved.byte pc
    let fl ← Flags.ofJson fl
    return ⟨gp, pc, fl⟩
  | _ => throw .malformed

@[simp] theorem gpOfJson_ofBytes (gp : Vector UInt8 8) :
    gpOfJson (.ofBytes gp.toList) = .ok gp := by
  obtain ⟨⟨gp⟩, h⟩ := gp
  simp only [List.size_toArray] at h
  simp [gpOfJson, bind, Except.bind, pure, Except.pure, h]

@[simp] theorem ofJson_toJson (r : Registers) : ofJson r.toJson = .ok r := by
  simp [ofJson, toJson, List.lookup_cons, bind, Except.bind, pure, Except.pure,
    Functor.map, Except.map]

end Registers

namespace Memory

def toJson (m : Memory) : Json :=
  .obj [("cells", .ofBytes m.toList)]

def ofCells (cells : List UInt8) : Except Refusal Memory :=
  match ofList? cells with
  | some m => .ok m
  | none => .error (.cellCount cells.length)

def ofJson : Json → Except Refusal Memory
  | .obj fields =>
    match fields.lookup "cells" with
    | some j => do ofCells (← Saved.bytes j)
    | none => throw .malformed
  | .arr [j] => do ofCells (← Saved.bytes j)
  | _ => throw .malformed

@[simp] theorem ofJson_toJson (m : Memory) : ofJson m.toJson = .ok m := by
  simp [ofJson, toJson, ofCells, bind, Except.bind]

end Memory

namespace Machine

def toJson (m : Machine) : Json :=
  .obj [("regs", m.regs.toJson), ("mem", m.mem.toJson), ("state", m.state.toJson),
    ("cycles", .int m.cycles.toNat), ("last_instr", m.last.elim .null Instruction.toJson)]

/-- In an object the last instruction may be missing, which means that there is none. -/
def ofJson : Json → Except Refusal Machine
  | .obj fields => do
    let cycles? ← (fields.lookup "cycles").mapM Saved.counter
    let last? ← (fields.lookup "last_instr").mapM Instruction.lastOfJson
    let mem? ← (fields.lookup "mem").mapM Memory.ofJson
    let regs? ← (fields.lookup "regs").mapM Registers.ofJson
    let state? ← (fields.lookup "state").mapM RunState.ofJson
    match regs?, mem?, state?, cycles? with
    | some regs, some mem, some state, some cycles =>
      return ⟨regs, mem, state, cycles, last?.getD none⟩
    | _, _, _, _ => throw .malformed
  | .arr items => do
    let regs? ← items[0]?.mapM Registers.ofJson
    let mem? ← items[1]?.mapM Memory.ofJson
    let state? ← items[2]?.mapM RunState.ofJson
    let cycles? ← items[3]?.mapM Saved.counter
    let last? ← items[4]?.mapM Instruction.lastOfJson
    match regs?, mem?, state?, cycles?, last?, items[5]? with
    | some regs, some mem, some state, some cycles, some last, none =>
      return ⟨regs, mem, state, cycles, last⟩
    | _, _, _, _, _, _ => throw .malformed
  | _ => throw .malformed

@[simp] theorem ofJson_toJson (m : Machine) : ofJson m.toJson = .ok m := by
  simp [ofJson, toJson, List.lookup_cons, bind, Except.bind, pure, Except.pure,
    Functor.map, Except.map]

end Machine

end LS8
