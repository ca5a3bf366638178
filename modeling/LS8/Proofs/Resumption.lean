import LS8.Proofs.RunLoop
/-! A run that is taken up where another has left the machine. The two together are one run: counts
add up, lines and events stand one behind the other, and how the second ends is how both end. Going
on with a run is the same as beginning another one behind it, on a console that knows what came
before (`Run.extend_eq_followedBy`), so a run may be broken off after any turn and taken up again.
-/

namespace LS8

theorem append_appendList {α : Type} (xs ys : Array α) (l : List α) :
    xs ++ ys ++ l = xs ++ (ys ++ l) := by
  apply Array.toList_inj.1
  simp

/-- The console of a run as one finds it that begins behind it. -/
def Console.behind (r : Run) (c : Console) : Console :=
  ⟨fun lines => c.refusal (r.printed ++ lines),
    fun k lines => c.stop (r.count + k) (r.printed ++ lines)⟩

theorem Console.behind_accepting (r : Run) : accepting.behind r = accepting := rfl

namespace Run

def followedBy (r s : Run) : Run :=
  ⟨s.machine, r.count + s.count, r.printed ++ s.printed, r.log ++ s.log, s.ending⟩

def lines (r : Run) : List String :=
  r.printed.toList.map fun v => toString v.toNat ++ "\n"

variable (c : Console) (r s : Run)

theorem interrupt_followedBy : (r.followedBy s).interrupt = r.followedBy s.interrupt := by
  simp [interrupt, followedBy]

theorem absorb_followedBy (step : Step) :
    (r.followedBy s).absorb step = r.followedBy (s.absorb step) := by
  unfold absorb followedBy
  cases step.result <;> simp [Nat.add_assoc, append_appendList]

theorem advance_followedBy :
    (r.followedBy s).advance c = r.followedBy (s.advance (c.behind r)) := by
  have hstop : c.stop (r.followedBy s).count (r.followedBy s).printed =
      (c.behind r).stop s.count s.printed := rfl
  have hstep : (r.followedBy s).machine.step (c.refusal (r.followedBy s).printed) =
      s.machine.step ((c.behind r).refusal s.printed) := rfl
  rw [advance, advance, hstop, hstep]
  split
  · exact interrupt_followedBy r s
  · exact absorb_followedBy r s _

theorem extend_followedBy (n : Nat) :
    (r.followedBy s).extend c n = r.followedBy (s.extend (c.behind r) n) := by
  induction n generalizing s with
  | zero => rfl
  | succ n ih =>
    cases hover : s.isOver with
    | true =>
      have hboth : (r.followedBy s).isOver = true := hover
      rw [extend_of_isOver hboth, extend_of_isOver hover]
    | false =>
      have hboth : (r.followedBy s).isOver = false := hover
      rw [extend_succ hboth, extend_succ hover, advance_followedBy, ih]

variable {r}

theorem followedBy_start (h : r.ending = none) : r.followedBy (start r.machine) = r := by
  simp [followedBy, start, ← h]

/-- To go on with a run is to begin another one behind it. -/
theorem extend_eq_followedBy (h : r.ending = none) (n : Nat) :
    r.extend c n = r.followedBy ((start r.machine).extend (c.behind r) n) := by
  rw [← extend_followedBy, followedBy_start h]

variable (r)

theorem result_followedBy : (r.followedBy s).result = s.result.map (r.count + ·) := by
  unfold result followedBy
  rcases s.ending with _ | _ | f <;> rfl

theorem output_eq_join : r.output = String.join r.lines := by
  have hn : toString "\n" = "\n" := rfl
  simp [output, lines, String.join, List.foldl_map, hn, ← String.append_assoc]

theorem lines_followedBy : (r.followedBy s).lines = r.lines ++ s.lines := by
  simp [lines, followedBy]

theorem output_followedBy : (r.followedBy s).output = r.output ++ s.output := by
  rw [output_eq_join, lines_followedBy, output_eq_join, output_eq_join, String.join_append]

end Run

end LS8
