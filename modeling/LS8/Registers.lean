import LS8.Flags
/-! The register file: eight general registers, the program counter and the flags. The last general
register is the stack pointer. Programs name registers by a whole byte, so reading and writing by
such a name can fail; `get_set` is the law of the two. -/

namespace LS8

structure Registers where
  gp : Vector UInt8 8
  pc : UInt8
  fl : Flags
deriving DecidableEq, Repr

structure NoSuchRegister where
  index : UInt8
deriving DecidableEq, Repr

def NoSuchRegister.message (e : NoSuchRegister) : String :=
  s!"invalid register R{e.index.toNat} (expected R0-R7)"

namespace Registers

def initialSp : UInt8 := 0xF4

def powerOn : Registers :=
  ⟨#v[0, 0, 0, 0, 0, 0, 0, initialSp], 0, .clear⟩

def check (i : UInt8) : Except NoSuchRegister Unit :=
  if i.toNat < 8 then .ok () else .error ⟨i⟩

def get (r : Registers) (i : UInt8) : Except NoSuchRegister UInt8 :=
  if h : i.toNat < 8 then .ok r.gp[i.toNat] else .error ⟨i⟩

def set (r : Registers) (i v : UInt8) : Except NoSuchRegister Registers :=
  if h : i.toNat < 8 then .ok { r with gp := r.gp.set i.toNat v } else .error ⟨i⟩

def sp (r : Registers) : UInt8 :=
  r.gp[7]

def setSp (r : Registers) (v : UInt8) : Registers :=
  { r with gp := r.gp.set 7 v }

theorem check_eq_ok_iff {i : UInt8} : check i = .ok () ↔ i.toNat < 8 := by
  unfold check
  split <;> simp_all

theorem get_of_lt (r : Registers) {i : UInt8} (h : i.toNat < 8) : r.get i = .ok r.gp[i.toNat] :=
  dif_pos h

theorem get_of_le (r : Registers) {i : UInt8} (h : 8 ≤ i.toNat) : r.get i = .error ⟨i⟩ :=
  dif_neg (Nat.not_lt.2 h)

theorem set_of_lt (r : Registers) {i : UInt8} (v : UInt8) (h : i.toNat < 8) :
    r.set i v = .ok { r with gp := r.gp.set i.toNat v } :=
  dif_pos h

theorem set_of_le (r : Registers) {i : UInt8} (v : UInt8) (h : 8 ≤ i.toNat) :
    r.set i v = .error ⟨i⟩ :=
  dif_neg (Nat.not_lt.2 h)

theorem get_set {r r' : Registers} {i v : UInt8} (h : r.set i v = .ok r') (j : UInt8) :
    r'.get j = if j = i then .ok v else r.get j := by
  unfold set at h
  split at h
  · cases h
    unfold get
    split
    · by_cases e : j = i
      · subst e; simp
      · have : i.toNat ≠ j.toNat := fun h => e (UInt8.toNat_inj.1 h.symm)
        simp [e, this]
    · have : j ≠ i := by rintro rfl; contradiction
      simp [this]
  · cases h

theorem get_sp (r : Registers) : r.get 7 = .ok r.sp := rfl

@[simp] theorem sp_setSp (r : Registers) (v : UInt8) : (r.setSp v).sp = v := by
  simp [sp, setSp]

@[simp] theorem pc_setSp (r : Registers) (v : UInt8) : (r.setSp v).pc = r.pc := rfl

@[simp] theorem fl_setSp (r : Registers) (v : UInt8) : (r.setSp v).fl = r.fl := rfl

@[simp] theorem setSp_sp (r : Registers) : r.setSp r.sp = r := by
  obtain ⟨gp, pc, fl⟩ := r
  simp only [setSp, sp, mk.injEq, and_true]
  exact Vector.set_getElem_self ..

@[simp] theorem setSp_setSp (r : Registers) (v w : UInt8) :
    (r.setSp v).setSp w = r.setSp w := by
  simp [setSp]

end Registers

end LS8
