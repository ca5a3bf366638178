/-! Memory: 256 byte cells, addressed by a byte, so that every read and every write is in range. Two
memories are equal when all reads agree (`ext_read`), and each operation is known by what it does to
the reads. -/

namespace LS8

structure Memory where
  cells : Vector UInt8 256
deriving DecidableEq, Repr

namespace Memory

def size : Nat := 256

def blank : Memory :=
  ⟨Vector.replicate 256 0⟩

def read (m : Memory) (a : UInt8) : UInt8 :=
  have := a.toNat_lt
  m.cells[a.toNat]

def write (m : Memory) (a v : UInt8) : Memory :=
  ⟨m.cells.set a.toNat v a.toNat_lt⟩

def store (m : Memory) (a : UInt8) : List UInt8 → Memory
  | [] => m
  | b :: bs => (m.write a b).store (a + 1) bs

structure Overrun where
  size : Nat
  available : Nat
deriving DecidableEq, Repr

def Overrun.message (e : Overrun) : String :=
  s!"program size {e.size} exceeds available space {e.available}"

/-- Stores a program at an address if all of it fits there. -/
def load (m : Memory) (start : UInt8) (program : List UInt8) : Except Overrun Memory :=
  if start.toNat + program.length ≤ size then .ok (m.store start program)
  else .error ⟨program.length, size - start.toNat⟩

/-- Up to `count` cells from an address on, with their addresses; it ends with the last cell. -/
def dump (m : Memory) (start : UInt8) (count : Nat) : List (UInt8 × UInt8) :=
  (List.range (min count (size - start.toNat))).map fun i =>
    let a := start + UInt8.ofNat i
    (a, m.read a)

def toList (m : Memory) : List UInt8 :=
  m.cells.toList

def ofList? (cells : List UInt8) : Option Memory :=
  if h : cells.length = 256 then some ⟨⟨cells.toArray, by simpa using h⟩⟩ else none

theorem ext_read {m n : Memory} (h : ∀ a, m.read a = n.read a) : m = n := by
  obtain ⟨c⟩ := m
  obtain ⟨d⟩ := n
  congr
  apply Vector.ext
  intro i hi
  have := h (UInt8.ofNat i)
  simpa [read, Nat.mod_eq_of_lt hi] using this

theorem read_write (m : Memory) (a v b : UInt8) :
    (m.write a v).read b = if a = b then v else m.read b := by
  simp [read, write, Vector.getElem_set, UInt8.toNat_inj]

@[simp] theorem read_write_self (m : Memory) (a v : UInt8) : (m.write a v).read a = v := by
  simp [read_write]

/-- Bytes stored where they fit are read back in order, and no other cell changes. -/
theorem read_store {m : Memory} {a : UInt8} {bs : List UInt8}
    (h : a.toNat + bs.length ≤ size) (b : UInt8) :
    (m.store a bs).read b =
      if a ≤ b then bs[b.toNat - a.toNat]?.getD (m.read b) else m.read b := by
  induction bs generalizing m a with
  | nil => simp [Memory.store]
  | cons v bs ih =>
    rw [Memory.store]
    cases bs with
    | nil =>
      simp only [Memory.store, read_write, UInt8.le_iff_toNat_le, ← UInt8.toNat_inj]
      split
      · simp_all
      · split
        · rw [List.getElem?_eq_none (by simp; omega)]; rfl
        · rfl
    | cons w bs =>
      simp only [size, List.length_cons] at h
      have ha : (a + 1).toNat = a.toNat + 1 := by
        rw [UInt8.toNat_add]
        exact Nat.mod_eq_of_lt (by simp; omega)
      rw [ih (by simp [size, ha]; omega)]
      have hb : a = b ↔ a.toNat = b.toNat := UInt8.toNat_inj.symm
      simp only [read_write, UInt8.le_iff_toNat_le, ha, hb]
      rcases Nat.lt_trichotomy a.toNat b.toNat with hab | hab | hab
      · have : b.toNat - a.toNat = (b.toNat - (a.toNat + 1)) + 1 := by omega
        rw [if_pos (by omega), if_neg (by omega), if_pos (by omega), this,
          List.getElem?_cons_succ]
      · rw [if_neg (by omega), if_pos hab, if_pos (by omega), hab]
        simp
      · rw [if_neg (by omega), if_neg (by omega), if_neg (by omega)]

@[simp] theorem read_blank (a : UInt8) : blank.read a = 0 := by
  simp [read, blank]

@[simp] theorem length_toList (m : Memory) : m.toList.length = 256 := by
  simp [toList]

theorem getElem?_toList (m : Memory) (a : UInt8) : m.toList[a.toNat]? = some (m.read a) := by
  have := a.toNat_lt
  simp [toList, read]

theorem toList_write (m : Memory) (a v : UInt8) :
    (m.write a v).toList = m.toList.set a.toNat v :=
  Vector.toList_set a.toNat_lt

@[simp] theorem ofList?_toList (m : Memory) : ofList? m.toList = some m := by
  obtain ⟨⟨⟨cells⟩, h⟩⟩ := m
  simp only [List.size_toArray] at h
  simp [ofList?, toList, h]

end Memory

end LS8
