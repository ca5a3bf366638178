import LS8.Proofs.SavedForms
import LS8.Session
/-! Restoring a machine. Exactly the forms of a machine are accepted, and each restores the machine
that it is a form of; a memory that is wrong in its number of cells alone is refused with that
number, if nothing is found wrong before it. A refused machine leaves a session as it was, and
whatever a restored one goes through, each address has its cell. -/

namespace LS8

open Saved

namespace Memory

/-- A memory is saved as its cells. Here there may be any number of them. -/
def cellFields : List (RecordField (List UInt8)) :=
  [.required "cells" fun cells j => j = .ofBytes cells]

def Form (m : Memory) : Json → Prop :=
  IsRecord cellFields m.toList

/-- The form of a memory, but with `n` cells, and a memory does not have so many. -/
def Miscounted (n : Nat) (j : Json) : Prop :=
  n ≠ size ∧ ∃ cells : List UInt8, cells.length = n ∧ IsRecord cellFields cells j

theorem ofCells_eq_ok_iff {cells : List UInt8} {m : Memory} :
    ofCells cells = .ok m ↔ cells = m.toList := by
  constructor
  · intro h
    unfold ofCells at h
    split at h
    next n hn =>
      cases h
      unfold ofList? at hn
      split at hn <;> cases hn
      rfl
    next => cases h
  · rintro rfl
    rw [ofCells, ofList?_toList]

theorem ofCells_eq_cellCount_iff {cells : List UInt8} {n : Nat} :
    ofCells cells = .error (.cellCount n) ↔ cells.length = n ∧ n ≠ size := by
  unfold ofCells ofList? size
  by_cases h : cells.length = 256
  · rw [dif_pos h]
    constructor
    · exact nofun
    · rintro ⟨rfl, hn⟩
      exact absurd h hn
  · rw [dif_neg h]
    constructor
    · intro hn
      cases hn
      exact ⟨rfl, h⟩
    · rintro ⟨rfl, -⟩
      rfl

theorem bytes_bind_ofCells {j : Json} {r : Except Refusal Memory} (hr : r ≠ .error .malformed) :
    (bytes j >>= ofCells) = r ↔ ∃ cells, j = .ofBytes cells ∧ ofCells cells = r := by
  constructor
  · intro h
    cases hb : bytes j with
    | ok cells =>
      rw [hb] at h
      exact ⟨cells, bytes_eq_ok_iff.1 hb, h⟩
    | error e =>
      rw [hb] at h
      cases e with
      | malformed => exact absurd h.symm hr
      | cellCount n => exact absurd hb (uncounted_bytes j n)
  · rintro ⟨cells, rfl, h⟩
    rw [bytes_ofBytes]
    exact h

/-- A memory is read from its cells, and refused by their number if not as malformed. -/
theorem ofJson_eq_iff {j : Json} {r : Except Refusal Memory} (hr : r ≠ .error .malformed) :
    ofJson j = r ↔ ∃ cells, IsRecord cellFields cells j ∧ ofCells cells = r := by
  have hthrow : ¬ throw .malformed = r := hr.symm
  cases j with
  | obj given =>
    simp only [ofJson, IsRecord, cellFields, List.forall_mem_singleton,
      RecordField.given_required_iff]
    cases given.lookup "cells" with
    | none => simpa using hthrow
    | some v => simpa using bytes_bind_ofCells hr
  | arr items =>
    rcases items with _ | ⟨v, _ | ⟨w, rest⟩⟩
    · simpa [ofJson, IsRecord, cellFields] using hthrow
    · simpa [ofJson, IsRecord, cellFields, RecordField.required] using bytes_bind_ofCells hr
    · simpa [ofJson, IsRecord, cellFields] using hthrow
  | _ => simpa [ofJson, IsRecord] using hthrow

theorem ofJson_eq_ok_iff {j : Json} {m : Memory} : ofJson j = .ok m ↔ m.Form j := by
  rw [ofJson_eq_iff (r := .ok m) nofun]
  simp only [ofCells_eq_ok_iff, exists_eq_right, Form]

theorem ofJson_eq_cellCount_iff {j : Json} {n : Nat} :
    ofJson j = .error (.cellCount n) ↔ Miscounted n j := by
  rw [ofJson_eq_iff (r := .error (.cellCount n)) nofun]
  simp only [ofCells_eq_cellCount_iff]
  constructor
  · rintro ⟨cells, hcells, hlength, hn⟩
    exact ⟨hn, cells, hlength, hcells⟩
  · rintro ⟨hn, cells, hlength, hcells⟩
    exact ⟨cells, hcells, hlength, hn⟩

end Memory

namespace Machine

def fields : List (RecordField Machine) :=
  [.required "regs" fun m => m.regs.Form, .required "mem" fun m => m.mem.Form,
    .required "state" fun m => IsName m.state.name,
    .required "cycles" fun m j => j = .int m.cycles.toNat,
    ⟨"last_instr", fun m => Instruction.LastForm m.last, fun m => m.last = none⟩]

/-- The forms in which a machine is saved: an object that has all of its fields, though the last
instruction may be missing where there is none, or the array of all five. -/
def Form : Machine → Json → Prop :=
  IsRecord fields

theorem given_last_iff {m : Machine} {given : List (String × Json)} :
    RecordField.Given ⟨"last_instr", fun m => Instruction.LastForm m.last,
      fun m => m.last = none⟩ m given ↔
      ∃ last?, (given.lookup "last_instr").mapM Instruction.lastOfJson = .ok last? ∧
        last?.getD none = m.last := by
  unfold RecordField.Given
  dsimp only
  cases given.lookup "last_instr" with
  | none => simp [pure, Except.pure, eq_comm]
  | some v =>
    dsimp only
    rw [← Instruction.lastOfJson_eq_ok_iff]
    cases h : Instruction.lastOfJson v <;> simp [h, Functor.map, Except.map]

theorem ofJson_obj_eq_ok_iff {given : List (String × Json)} {m : Machine} :
    ofJson (.obj given) = .ok m ↔ m.Form (.obj given) := by
  simp only [Form, IsRecord, fields, List.forall_mem_cons, RecordField.given_required_iff,
    given_last_iff]
  constructor
  · intro h
    simp only [ofJson, bind_eq_ok_iff] at h
    obtain ⟨cycles?, hcycles, last?, hlast, mem?, hmem, regs?, hregs, state?, hstate, h⟩ := h
    split at h <;> cases h
    obtain ⟨c, hc, hcycles⟩ := mapM_eq_ok_some_iff.1 hcycles
    obtain ⟨v, hv, hmem⟩ := mapM_eq_ok_some_iff.1 hmem
    obtain ⟨r, hr, hregs⟩ := mapM_eq_ok_some_iff.1 hregs
    obtain ⟨s, hs, hstate⟩ := mapM_eq_ok_some_iff.1 hstate
    exact ⟨⟨r, hr, Registers.ofJson_eq_ok_iff.1 hregs⟩, ⟨v, hv, Memory.ofJson_eq_ok_iff.1 hmem⟩,
      ⟨s, hs, RunState.ofJson_eq_ok_iff.1 hstate⟩, ⟨c, hc, counter_eq_ok_iff.1 hcycles⟩,
      ⟨last?, hlast, rfl⟩, List.forall_mem_nil _⟩
  · rintro ⟨⟨r, hr, hregs⟩, ⟨v, hv, hmem⟩, ⟨s, hs, hstate⟩, ⟨c, hc, hcycles⟩,
      ⟨last?, hlast, hnone⟩, -⟩
    simp only [ofJson, bind_eq_ok_iff]
    refine ⟨_, mapM_eq_ok_some_iff.2 ⟨c, hc, counter_eq_ok_iff.2 hcycles⟩, last?, hlast,
      _, mapM_eq_ok_some_iff.2 ⟨v, hv, Memory.ofJson_eq_ok_iff.2 hmem⟩,
      _, mapM_eq_ok_some_iff.2 ⟨r, hr, Registers.ofJson_eq_ok_iff.2 hregs⟩,
      _, mapM_eq_ok_some_iff.2 ⟨s, hs, RunState.ofJson_eq_ok_iff.2 hstate⟩, ?_⟩
    rw [hnone]
    rfl

theorem eq_of_getElem?_four {α : Type} {items : List α} {e : α} (h : items[4]? = some e)
    (hend : items[5]? = none) : ∃ a b c d, items = [a, b, c, d, e] := by
  match items with
  | [a, b, c, d, e'] => exact ⟨a, b, c, d, by simpa using h⟩
  | [] | [_] | [_, _] | [_, _, _] | [_, _, _, _] => cases h
  | _ :: _ :: _ :: _ :: _ :: _ :: _ => cases hend

theorem ofJson_arr_eq_ok_iff {items : List Json} {m : Machine} :
    ofJson (.arr items) = .ok m ↔ m.Form (.arr items) := by
  constructor
  · intro h
    simp only [ofJson, bind_eq_ok_iff] at h
    obtain ⟨regs?, hregs, mem?, hmem, state?, hstate, cycles?, hcycles, last?, hlast, h⟩ := h
    split at h
    next hend =>
      cases h
      obtain ⟨l, hl, hlastForm⟩ := mapM_eq_ok_some_iff.1 hlast
      obtain ⟨r, v, s, c, rfl⟩ := eq_of_getElem?_four hl hend
      obtain ⟨_, ⟨⟩, hregs⟩ := mapM_eq_ok_some_iff.1 hregs
      obtain ⟨_, ⟨⟩, hmem⟩ := mapM_eq_ok_some_iff.1 hmem
      obtain ⟨_, ⟨⟩, hstate⟩ := mapM_eq_ok_some_iff.1 hstate
      obtain ⟨_, ⟨⟩, hcycles⟩ := mapM_eq_ok_some_iff.1 hcycles
      exact .cons (Registers.ofJson_eq_ok_iff.1 hregs) <| .cons (Memory.ofJson_eq_ok_iff.1 hmem) <|
        .cons (RunState.ofJson_eq_ok_iff.1 hstate) <| .cons (counter_eq_ok_iff.1 hcycles) <|
        .cons (Instruction.lastOfJson_eq_ok_iff.1 hlastForm) .nil
    next => cases h
  · intro h
    obtain - | ⟨hregs, - | ⟨hmem, - | ⟨hstate, - | ⟨hcycles, - | ⟨hlast, ⟨⟩⟩⟩⟩⟩⟩ := h
    simp only [ofJson, bind_eq_ok_iff]
    exact ⟨_, mapM_eq_ok_some_iff.2 ⟨_, rfl, Registers.ofJson_eq_ok_iff.2 hregs⟩,
      _, mapM_eq_ok_some_iff.2 ⟨_, rfl, Memory.ofJson_eq_ok_iff.2 hmem⟩,
      _, mapM_eq_ok_some_iff.2 ⟨_, rfl, RunState.ofJson_eq_ok_iff.2 hstate⟩,
      _, mapM_eq_ok_some_iff.2 ⟨_, rfl, counter_eq_ok_iff.2 hcycles⟩,
      _, mapM_eq_ok_some_iff.2 ⟨_, rfl, Instruction.lastOfJson_eq_ok_iff.2 hlast⟩, rfl⟩

theorem ofJson_eq_ok_iff {j : Json} {m : Machine} : ofJson j = .ok m ↔ m.Form j := by
  cases j with
  | obj given => exact ofJson_obj_eq_ok_iff
  | arr items => exact ofJson_arr_eq_ok_iff
  | _ => exact ⟨nofun, nofun⟩

/-- The form of a machine, but with `n` memory cells, as far as it is looked at up to these. -/
def Miscounted (n : Nat) : Json → Prop :=
  FirstWrong fields "mem" (Memory.Miscounted n)

/-- In an object only the counter and the last instruction come before the memory. -/
theorem miscounted_obj_iff {given : List (String × Json)} {n : Nat} :
    Miscounted n (.obj given) ↔
      ∃ v, given.lookup "mem" = some v ∧ Memory.Miscounted n v ∧
        (∀ w, given.lookup "cycles" = some w → ∃ m : Machine, w = .int m.cycles.toNat) ∧
        ∀ w, given.lookup "last_instr" = some w → ∃ m : Machine, Instruction.LastForm m.last w := by
  have hregs : sortsBefore "regs" "mem" = false := rfl
  have hmem : sortsBefore "mem" "mem" = false := rfl
  have hstate : sortsBefore "state" "mem" = false := rfl
  have hcycles : sortsBefore "cycles" "mem" = true := rfl
  have hlast : sortsBefore "last_instr" "mem" = true := rfl
  simp [Miscounted, FirstWrong, fields, valueFor?, LookedAtFirst, RecordField.required, hregs, hmem,
    hstate, hcycles, hlast]

theorem miscounted_arr_iff {items : List Json} {n : Nat} :
    Miscounted n (.arr items) ↔
      ∃ v, items[1]? = some v ∧ Memory.Miscounted n v ∧
        ∀ w, items[0]? = some w → ∃ m : Machine, m.regs.Form w := by
  simp [Miscounted, FirstWrong, fields, valueFor?, LookedAtFirst, RecordField.required]

theorem exists_counter_iff {j : Json} :
    (∃ n, counter j = .ok n) ↔ ∃ m : Machine, j = .int m.cycles.toNat := by
  constructor
  · rintro ⟨n, hn⟩
    exact ⟨{ powerOn with cycles := n }, counter_eq_ok_iff.1 hn⟩
  · rintro ⟨m, hm⟩
    exact ⟨m.cycles, counter_eq_ok_iff.2 hm⟩

theorem exists_lastOfJson_iff {j : Json} : (∃ last, Instruction.lastOfJson j = .ok last) ↔
    ∃ m : Machine, Instruction.LastForm m.last j := by
  constructor
  · rintro ⟨last, h⟩
    exact ⟨{ powerOn with last }, Instruction.lastOfJson_eq_ok_iff.1 h⟩
  · rintro ⟨m, hm⟩
    exact ⟨m.last, Instruction.lastOfJson_eq_ok_iff.2 hm⟩

theorem exists_registers_iff {j : Json} :
    (∃ r, Registers.ofJson j = .ok r) ↔ ∃ m : Machine, m.regs.Form j := by
  constructor
  · rintro ⟨regs, h⟩
    exact ⟨{ powerOn with regs }, Registers.ofJson_eq_ok_iff.1 h⟩
  · rintro ⟨m, hm⟩
    exact ⟨m.regs, Registers.ofJson_eq_ok_iff.2 hm⟩

theorem ofJson_obj_eq_cellCount_iff {given : List (String × Json)} {n : Nat} :
    ofJson (.obj given) = .error (.cellCount n) ↔ Miscounted n (.obj given) := by
  rw [miscounted_obj_iff]
  simp only [← exists_counter_iff, ← exists_lastOfJson_iff, ← mapM_eq_ok_iff,
    ← Memory.ofJson_eq_cellCount_iff]
  constructor
  · intro h
    obtain ⟨cycles?, hcycles, h⟩ := (uncounted_mapM uncounted_counter).bind_eq_iff.1 h
    obtain ⟨last?, hlast, h⟩ := (uncounted_mapM Instruction.uncounted_lastOfJson).bind_eq_iff.1 h
    rw [bind_eq_cellCount_iff] at h
    · obtain ⟨v, hv, hmem⟩ := mapM_eq_error_iff.1 h
      exact ⟨v, hv, hmem, ⟨cycles?, hcycles⟩, ⟨last?, hlast⟩⟩
    · -- what is looked at after the memory is not refused for a number of cells
      refine fun mem? => (uncounted_mapM Registers.uncounted_ofJson).bind fun regs? => ?_
      refine (uncounted_mapM (uncounted_named _)).bind fun state? => ?_
      split
      · exact uncounted_ok _
      · exact uncounted_malformed
  · rintro ⟨v, hv, hmem, ⟨cycles?, hcycles⟩, ⟨last?, hlast⟩⟩
    refine (uncounted_mapM uncounted_counter).bind_eq_iff.2 ⟨cycles?, hcycles, ?_⟩
    refine (uncounted_mapM Instruction.uncounted_lastOfJson).bind_eq_iff.2 ⟨last?, hlast, ?_⟩
    rw [mapM_eq_error_iff.2 ⟨v, hv, hmem⟩]
    rfl

theorem ofJson_arr_eq_cellCount_iff {items : List Json} {n : Nat} :
    ofJson (.arr items) = .error (.cellCount n) ↔ Miscounted n (.arr items) := by
  rw [miscounted_arr_iff]
  simp only [← exists_registers_iff, ← mapM_eq_ok_iff, ← Memory.ofJson_eq_cellCount_iff]
  constructor
  · intro h
    obtain ⟨regs?, hregs, h⟩ := (uncounted_mapM Registers.uncounted_ofJson).bind_eq_iff.1 h
    rw [bind_eq_cellCount_iff] at h
    · obtain ⟨v, hv, hmem⟩ := mapM_eq_error_iff.1 h
      exact ⟨v, hv, hmem, regs?, hregs⟩
    · refine fun mem? => (uncounted_mapM (uncounted_named _)).bind fun state? => ?_
      refine (uncounted_mapM uncounted_counter).bind fun cycles? => ?_
      refine (uncounted_mapM Instruction.uncounted_lastOfJson).bind fun last? => ?_
      split
      · exact uncounted_ok _
      · exact uncounted_malformed
  · rintro ⟨v, hv, hmem, regs?, hregs⟩
    refine (uncounted_mapM Registers.uncounted_ofJson).bind_eq_iff.2 ⟨regs?, hregs, ?_⟩
    rw [mapM_eq_error_iff.2 ⟨v, hv, hmem⟩]
    rfl

theorem ofJson_eq_cellCount_iff {j : Json} {n : Nat} :
    ofJson j = .error (.cellCount n) ↔ Miscounted n j := by
  cases j with
  | obj given => exact ofJson_obj_eq_cellCount_iff
  | arr items => exact ofJson_arr_eq_cellCount_iff
  | _ =>
    constructor
    · exact nofun
    · rintro ⟨v, hv, -⟩
      cases hv

end Machine

theorem Refusal.message?_cellCount (n : Nat) : message? (.cellCount n) =
    some ("memory has " ++ toString n ++ " cells, expected 256") := by
  have hend : toString " cells, expected " ++ toString Memory.size = " cells, expected 256" := by
    decide
  rw [message?, String.append_assoc, hend]
  rfl

theorem Refusal.message?_eq_some_iff {r : Refusal} {n : Nat} :
    r.message? = some ("memory has " ++ toString n ++ " cells, expected 256") ↔
      r = .cellCount n := by
  constructor
  · intro h
    cases r with
    | malformed => cases h
    | cellCount k =>
      rw [message?_cellCount, Option.some_inj, String.append_left_inj, String.append_right_inj] at h
      have hdigits : Nat.toDigits 10 k = Nat.toDigits 10 n := by
        rw [← Nat.toList_repr, ← Nat.toList_repr]
        exact congrArg String.toList h
      rw [← Nat.ofDigitChars_ten_toDigits (n := k), hdigits, Nat.ofDigitChars_ten_toDigits]
  · rintro rfl
    exact message?_cellCount n

/-- Each address has a cell of its own, where it is read and where it is written. -/
structure Memory.Addressed (m : Memory) : Prop where
  length : m.toList.length = 256
  read : ∀ a : UInt8, m.toList[a.toNat]? = some (m.read a)
  write : ∀ a v : UInt8, (m.write a v).toList = m.toList.set a.toNat v

theorem Memory.addressed (m : Memory) : m.Addressed :=
  ⟨m.length_toList, m.getElem?_toList, m.toList_write⟩

namespace Session

theorem perform_restore_of_ok {m m' : Machine} {j : Json} (h : Machine.ofJson j = .ok m') :
    perform m (.restore j) = .quiet m' .done := by
  rw [perform, h]
  rfl

theorem perform_restore_of_error {m : Machine} {j : Json} {r : Refusal}
    (h : Machine.ofJson j = .error r) :
    perform m (.restore j) = .quiet m (.failed (.refusal r)) := by
  rw [perform, h]
  rfl

end Session

open Session in
/-- A value restores a machine exactly if it is a form of it, and any other changes nothing. -/
theorem restore_accepts_exactly_forms :
    (∀ (j : Json) (m : Machine), Machine.ofJson j = .ok m ↔ m.Form j) ∧
    (∀ (j : Json) (n : Nat),
      (∃ r, Machine.ofJson j = .error r ∧
        r.message? = some ("memory has " ++ toString n ++ " cells, expected 256")) ↔
      Machine.Miscounted n j) ∧
    (∀ (m : Machine) (j : Json) (r : Refusal), Machine.ofJson j = .error r →
      perform m (.restore j) = .quiet m (.failed (.refusal r)) ∧
      ∀ later, after m (.restore j :: later) = after m later) ∧
    (∀ (m m' : Machine) (j : Json), Machine.ofJson j = .ok m' →
      perform m (.restore j) = .quiet m' .done ∧
      ∀ later, after m (.restore j :: later) = after m' later ∧
        (after m' later).mem.Addressed) := by
  refine ⟨fun j m => Machine.ofJson_eq_ok_iff, fun j n => ?_, fun m j r h => ?_,
    fun m m' j h => ?_⟩
  · simp only [Refusal.message?_eq_some_iff, exists_eq_right]
    exact Machine.ofJson_eq_cellCount_iff
  · have hperform := perform_restore_of_error (m := m) h
    refine ⟨hperform, fun later => ?_⟩
    rw [after, hperform]
    rfl
  · have hperform := perform_restore_of_ok (m := m) h
    refine ⟨hperform, fun later => ⟨?_, Memory.addressed _⟩⟩
    rw [after, hperform]
    rfl

end LS8
