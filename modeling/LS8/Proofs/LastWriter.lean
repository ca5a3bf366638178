import LS8.Proofs.InstructionTable
import LS8.Session
/-! Calls that write memory, one after another: single cells, whole programs, and all cells at once.
A program that does not fit changes nothing. So each call assigns a value to some cells and none to
the others (`Request.assigned?`), and a cell holds what was assigned to it last. A dump tells what
the cells hold, in the order of their addresses, and can be loaded again. -/

namespace LS8

namespace Memory

/-- The byte that a program loaded at an address puts into a cell, if it fits and covers it. -/
def placed? (start : UInt8) (program : List UInt8) (a : UInt8) : Option UInt8 :=
  if start.toNat + program.length ≤ 256 ∧ start ≤ a then program[a.toNat - start.toNat]? else none

variable {m m' : Memory} {start : UInt8} {program : List UInt8}

theorem read_of_load (h : m.load start program = .ok m') (a : UInt8) :
    m'.read a = (placed? start program a).getD (m.read a) := by
  unfold load at h
  split at h <;> cases h
  next hfits =>
    rw [read_store hfits, placed?]
    by_cases ha : start ≤ a
    · rw [if_pos ha, if_pos ⟨hfits, ha⟩]
    · rw [if_neg ha, if_neg fun h => ha h.2]
      rfl

theorem placed?_of_not_fits (h : ¬ start.toNat + program.length ≤ 256) (a : UInt8) :
    placed? start program a = none :=
  if_neg fun hc => h hc.1

variable (m start) (count : Nat)

/-- A dump has the addresses from its start on, as far as memory goes. -/
theorem map_fst_dump : (m.dump start count).map (·.1.toNat) =
    List.range' start.toNat (min (start.toNat + count) 256 - start.toNat) := by
  have hlength : min count (size - start.toNat) = min (start.toNat + count) 256 - start.toNat := by
    simp only [size]
    omega
  rw [dump, List.map_map, hlength, List.range'_eq_map_range]
  refine List.map_congr_left fun i hi => toNat_add_ofNat ?_
  have := List.mem_range.1 hi
  omega

theorem snd_of_mem_dump {cell : UInt8 × UInt8} (h : cell ∈ m.dump start count) :
    cell.2 = m.read cell.1 := by
  obtain ⟨i, -, rfl⟩ := List.mem_map.1 h
  rfl

theorem map_snd_dump : (m.dump start count).map (·.2) =
    (List.range (min count (size - start.toNat))).map fun i => m.read (start + UInt8.ofNat i) :=
  List.map_map

/-- A dump can be loaded where it was taken and changes nothing there. -/
theorem load_dump : m.load start ((m.dump start count).map (·.2)) = .ok m := by
  have hstart := start.toNat_lt
  have hfits : start.toNat + ((m.dump start count).map (·.2)).length ≤ size := by
    rw [map_snd_dump, List.length_map, List.length_range, size]
    omega
  rw [load, if_pos hfits]
  refine congrArg Except.ok (ext_read fun a => ?_)
  rw [read_store hfits, map_snd_dump, List.getElem?_map]
  split
  next ha =>
    rw [UInt8.le_iff_toNat_le] at ha
    by_cases hi : a.toNat - start.toNat < min count (size - start.toNat)
    · have hcell : start + UInt8.ofNat (a.toNat - start.toNat) = a := by
        have := a.toNat_lt
        apply UInt8.toNat_inj.1
        rw [toNat_add_ofNat (by omega)]
        omega
      rw [List.getElem?_range hi, Option.map_some, hcell]
      rfl
    · rw [List.getElem?_eq_none (by simpa using Nat.not_lt.1 hi)]
      rfl
  next => rfl

end Memory

namespace Session

def Request.Writes : Request → Prop
  | .write _ _ | .load _ | .loadAt _ _ | .clear => True
  | _ => False

def Request.assigned? (a : UInt8) : Request → Option UInt8
  | .write b v => if b = a then some v else none
  | .load program => Memory.placed? 0 program a
  | .loadAt start program => Memory.placed? start program a
  | .clear => some 0
  | _ => none

variable {m : Machine} {r : Request} {calls : List Request}

theorem perform_loadAt (m : Machine) (start : UInt8) (program : List UInt8) :
    (start.toNat + program.length ≤ 256 ∧ ∃ mem, m.mem.load start program = .ok mem ∧
      perform m (.loadAt start program) = .quiet { m with mem } .done) ∨
    (¬ start.toNat + program.length ≤ 256 ∧ perform m (.loadAt start program) =
      .quiet m (.failed (.overrun ⟨program.length, 256 - start.toNat⟩))) := by
  by_cases h : start.toNat + program.length ≤ 256
  · have hload : m.mem.load start program = .ok (m.mem.store start program) := if_pos h
    exact .inl ⟨h, _, hload, by rw [perform, hload]; rfl⟩
  · have hload : m.mem.load start program = .error ⟨program.length, 256 - start.toNat⟩ := if_neg h
    exact .inr ⟨h, by rw [perform, hload]; rfl⟩

/-- To load a program is to load it at address zero, but for what is reported. -/
theorem perform_load (m : Machine) (program : List UInt8) :
    (perform m (.load program)).run.machine = (perform m (.loadAt 0 program)).run.machine ∧
      (perform m (.load program)).result = (perform m (.loadAt 0 program)).result := by
  cases h : m.mem.load 0 program with
  | ok mem =>
    rw [perform, perform, Machine.load, h]
    exact ⟨rfl, rfl⟩
  | error e =>
    rw [perform, perform, Machine.load, h]
    exact ⟨rfl, rfl⟩

theorem read_perform_loadAt (m : Machine) (start : UInt8) (program : List UInt8) (a : UInt8) :
    (perform m (.loadAt start program)).run.machine.mem.read a =
      (Memory.placed? start program a).getD (m.mem.read a) := by
  rcases perform_loadAt m start program with ⟨-, mem, hload, hp⟩ | ⟨hfits, hp⟩
  · rw [hp]
    exact Memory.read_of_load hload a
  · rw [hp, Memory.placed?_of_not_fits hfits]
    rfl

/-- A call leaves in a cell what it assigns to it. -/
theorem read_perform (h : r.Writes) (a : UInt8) : (perform m r).run.machine.mem.read a =
    (r.assigned? a).getD (m.mem.read a) := by
  cases r
  case write b v =>
    refine (m.mem.read_write b v a).trans ?_
    rw [Request.assigned?]
    split <;> rfl
  case load program =>
    rw [(perform_load m program).1]
    exact read_perform_loadAt m 0 program a
  case loadAt start program => exact read_perform_loadAt m start program a
  case clear => exact Memory.read_blank a
  all_goals cases h

/-- By induction on the calls, a cell holds what was assigned to it last. -/
theorem read_after (h : ∀ r ∈ calls, r.Writes) (a : UInt8) : (after m calls).mem.read a =
    (calls.filterMap (Request.assigned? a)).getLast?.getD (m.mem.read a) := by
  induction calls generalizing m with
  | nil => rfl
  | cons r rs ih =>
    obtain ⟨hr, hrs⟩ := List.forall_mem_cons.1 h
    rw [after, ih hrs, read_perform hr, List.filterMap_cons]
    cases r.assigned? a with
    | none => rfl
    | some v => rw [List.getLast?_cons]; rfl

end Session

open Session in
/-- Each cell holds what was assigned to it last, a program is loaded as a whole or not at all, and
a dump tells just the cells in its range. -/
theorem last_writer_wins (m : Machine) (calls : List Request) (hcalls : ∀ r ∈ calls, r.Writes) :
    let now := after m calls
    (∀ a, now.mem.read a =
      (calls.filterMap (Request.assigned? a)).getLast?.getD (m.mem.read a)) ∧
    (∀ start program,
      ((perform now (.loadAt start program)).result =
        if start.toNat + program.length ≤ 256 then .done
        else .failed (.overrun { size := program.length, available := 256 - start.toNat })) ∧
      (¬ start.toNat + program.length ≤ 256 →
        (perform now (.loadAt start program)).run.machine = now)) ∧
    (∀ program,
      (perform now (.load program)).run.machine = (perform now (.loadAt 0 program)).run.machine ∧
      (perform now (.load program)).result = (perform now (.loadAt 0 program)).result) ∧
    ∀ start count, let cells := now.mem.dump start count
      cells.map (·.1.toNat) =
        List.range' start.toNat (min (start.toNat + count) 256 - start.toNat) ∧
      (∀ cell ∈ cells, cell.2 = now.mem.read cell.1) ∧
      now.mem.load start (cells.map (·.2)) = .ok now.mem := by
  intro now
  refine ⟨read_after hcalls, fun start program => ?_, perform_load now, fun start count => ?_⟩
  · rcases perform_loadAt now start program with ⟨hfits, mem, -, hp⟩ | ⟨hfits, hp⟩
    · rw [hp, if_pos hfits]
      exact ⟨rfl, fun h => absurd hfits h⟩
    · rw [hp, if_neg hfits]
      exact ⟨rfl, fun _ => rfl⟩
  · exact ⟨now.mem.map_fst_dump start count, fun cell => now.mem.snd_of_mem_dump start count,
      now.mem.load_dump start count⟩

open Session in
/-- A program that ends in the last cell, one that is a byte too long, and a write over the first. -/
def fillingCalls : List Request :=
  [.loadAt 0xFD [1, 2, 3], .loadAt 0xFE [7, 8, 9], .write 0xFE 9]

open Session in
theorem filling_last_writer :
    (∀ r ∈ fillingCalls, r.Writes) ∧
      let now := after .powerOn fillingCalls
      now.mem.read 0xFD = 1 ∧ now.mem.read 0xFE = 9 ∧ now.mem.read 0xFF = 3 ∧
        (perform now (.loadAt 0xFE [7, 8, 9])).result = .failed (.overrun ⟨3, 2⟩) := by
  have hcalls : ∀ r ∈ fillingCalls, r.Writes := by
    intro r hr
    simp only [fillingCalls, List.mem_cons, List.not_mem_nil, or_false] at hr
    rcases hr with rfl | rfl | rfl <;> trivial
  obtain ⟨hread, hload, -⟩ := last_writer_wins .powerOn fillingCalls hcalls
  exact ⟨hcalls, (hread 0xFD).trans (by decide), (hread 0xFE).trans (by decide),
    (hread 0xFF).trans (by decide), (hload 0xFE [7, 8, 9]).1⟩

end LS8
