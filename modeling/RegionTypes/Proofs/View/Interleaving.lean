import RegionTypes.Proofs.View.Thread

/-!
# Split halves do not interfere

Two programs run on the two halves of a split view, in one array.  A **schedule** says whose step
comes next.

* `Halves.step`, `Halves.run` — the steps of both programs on the shared array.
* `Halves.run_eq_threads` — on a schedule, each program does what it does alone on its own half.
* `split_halves_independent` — **every interleaving ends alike**: the answers of both programs and
  the array are those of running the left one to its end and then the right one.
-/

namespace RegionTypes

/-- The view is a window on the array. -/
def View.IsOf {α : Type} (v : View α) (array : List α) : Prop :=
  ∃ before after, array = before ++ v.cells ++ after ∧ before.length = v.start

/-- The halves of a split view and the cells around them. -/
theorem View.IsOf.exists_halves {α : Type} {array : List α} {v l r : View α} {mid : Nat}
    (hv : v.IsOf array) (hsplit : v.splitAt mid = .ok (l, r)) :
    ∃ before after, array = before ++ l.cells ++ r.cells ++ after ∧ before.length = l.start ∧
      (before ++ l.cells).length = r.start ∧
      ∀ new, v.window.write 0 new array = before ++ new ++ after := by
  obtain ⟨before, after, rfl, hbefore⟩ := hv
  unfold View.splitAt at hsplit
  split at hsplit
  · next hmid =>
    obtain ⟨rfl, rfl⟩ := Prod.mk.inj (Except.ok.inj hsplit)
    have hparts : v.window.Parts 0 before v.cells after _ :=
      ⟨rfl, (Nat.zero_add _).trans hbefore, rfl⟩
    refine ⟨before, after, ?_, hbefore, ?_, fun new => hparts.write⟩
    · simp only [List.append_assoc, List.take_append_drop]
    · rw [List.length_append, hbefore, List.length_take_of_le hmid]
  · cases hsplit

/-- Whose step comes next. -/
inductive Side where
  | left | right
  deriving DecidableEq, Repr

/-- All steps of the left program before those of the right one. -/
def Side.leftFirst (m n : Nat) : List Side := List.replicate m .left ++ List.replicate n .right

theorem Side.count_left_leftFirst (m n : Nat) : (leftFirst m n).count .left = m := by
  simp [leftFirst, List.count_replicate]

theorem Side.count_right_leftFirst (m n : Nat) : (leftFirst m n).count .right = n := by
  simp [leftFirst, List.count_replicate]

/-- Two programs at work on one array. -/
structure Halves (α : Type) where
  left : Thread α
  right : Thread α
  array : List α

namespace Halves

variable {α : Type}

/-- Both programs have come to their end. -/
def Finished (c : Halves α) : Prop := c.left.Finished ∧ c.right.Finished

variable [DecidableEq α] {fmt : View.CellFormat α}

/-- One step of the program on a side. -/
def step (fmt : View.CellFormat α) (c : Halves α) : Side → Option (Halves α)
  | .left => (c.left.step fmt 0 c.array).map fun p => { c with left := p.1, array := p.2 }
  | .right => (c.right.step fmt 0 c.array).map fun p => { c with right := p.1, array := p.2 }

/-- The steps of a schedule; nothing if it gives a step to a program that has ended. -/
def run (fmt : View.CellFormat α) : List Side → Halves α → Option (Halves α)
  | [], c => some c
  | side :: schedule, c => (c.step fmt side).bind (run fmt schedule)

theorem run_append {first second : List Side} {c : Halves α} :
    c.run fmt (first ++ second) = (c.run fmt first).bind (run fmt second) := by
  induction first generalizing c with
  | nil => rfl
  | cons side first ih =>
    simp only [List.cons_append, run, Option.bind_assoc]
    exact Option.bind_congr fun c' _ => ih

/-- **Each program runs alone on its own half.**  What a schedule does is what its left steps do on
the left half and its right steps on the right half, in whatever order they come. -/
theorem run_eq_threads {schedule : List Side} {l r : Thread α} {before left right after : List α}
    (hl : l.Inside before.length left.length)
    (hr : r.Inside (before ++ left).length right.length) :
    run fmt schedule ⟨l, r, before ++ left ++ right ++ after⟩ =
      (Thread.run fmt before.length (schedule.count .left) (l, left)).bind fun p =>
        (Thread.run fmt (before ++ left).length (schedule.count .right) (r, right)).map fun q =>
          ⟨p.1, q.1, before ++ p.2 ++ q.2 ++ after⟩ := by
  induction schedule generalizing l r left right with
  | nil => rfl
  | cons side schedule ih =>
    cases side with
    | left =>
      have hstep : l.step fmt 0 (before ++ left ++ right ++ after) =
          (l.step fmt before.length left).map fun p => (p.1, before ++ p.2 ++ right ++ after) := by
        rw [List.append_assoc _ right, Thread.step_append hl]
        simp only [List.append_assoc]
      simp only [run, step, hstep, List.count_cons_self, List.count_cons_of_ne, ne_eq,
        reduceCtorEq, not_false_eq_true, Thread.run]
      cases hnext : l.step fmt before.length left with
      | none => rfl
      | some p =>
        obtain ⟨hinside, hlength⟩ := Thread.step_inside hl hnext
        -- the left half keeps its length, so the right half stays in its place
        have hbase : (before ++ p.2).length = (before ++ left).length := by
          simp only [List.length_append, hlength]
        rw [← hlength] at hinside
        rw [← hbase] at hr
        have hp := ih hinside hr
        rw [hbase] at hp
        exact hp
    | right =>
      simp only [run, step, Thread.step_append hr, List.count_cons_self, List.count_cons_of_ne,
        ne_eq, reduceCtorEq, not_false_eq_true, Thread.run]
      cases hnext : r.step fmt (before ++ left).length right with
      | none => simp
      | some =>
        obtain ⟨hinside, hlength⟩ := Thread.step_inside hr hnext
        exact ih hl (hlength.symm ▸ hinside)

/-- Both programs about to run on the two views. -/
def start (l r : View α) (left right : List (ViewOp α)) (array : List α) : Halves α :=
  ⟨.start l left, .start r right, array⟩

/-- Both programs have run, each at once on the view given to it, and the cells of the two views are
in their places in the window of `v`. -/
def ended (fmt : View.CellFormat α) (v l r : View α) (left right : List (ViewOp α))
    (array : List α) : Halves α :=
  ⟨.ended l (ViewOp.runAll fmt left l).1, .ended r (ViewOp.runAll fmt right r).1,
    v.window.write 0 ((ViewOp.runAll fmt left l).2.cells ++ (ViewOp.runAll fmt right r).2.cells)
      array⟩

variable {array : List α} {v l r : View α} {mid : Nat} {left right : List (ViewOp α)}

/-- The threads of a split view run side by side. -/
theorem run_start {schedule : List Side} (hv : v.IsOf array)
    (hsplit : v.splitAt mid = .ok (l, r)) :
    (start l r left right array).run fmt schedule =
      (Thread.run fmt l.start (schedule.count .left) (.start l left, l.cells)).bind fun p =>
        (Thread.run fmt r.start (schedule.count .right) (.start r right, r.cells)).map fun q =>
          ⟨p.1, q.1, v.window.write 0 (p.2 ++ q.2) array⟩ := by
  obtain ⟨before, after, harray, hl, hr, hwrite⟩ := hv.exists_halves hsplit
  have hleft : (Thread.start l left).Inside before.length l.cells.length := by
    rw [hl]
    exact .start l left
  have hright : (Thread.start r right).Inside (before ++ l.cells).length r.cells.length := by
    rw [hr]
    exact .start r right
  have hrun : run fmt schedule ⟨_, _, before ++ l.cells ++ r.cells ++ after⟩ = _ :=
    run_eq_threads hleft hright
  simp only [hwrite, start, ← List.append_assoc]
  rw [harray, hrun, hl, hr]

/-- **Every interleaving ends alike.**  Two programs run step by step on the halves of a split view
of an array.  All steps of the left one and then all steps of the right one give each program the
answers that it has alone, with its cells put in place; every schedule that brings both to their end
gives the same answers and the same array; and every schedule can be completed to such an end. -/
theorem split_halves_independent (fmt : View.CellFormat α) (hv : v.IsOf array)
    (hsplit : v.splitAt mid = .ok (l, r)) (left right : List (ViewOp α)) :
    (∃ m n, (start l r left right array).run fmt (Side.leftFirst m n) =
      some (ended fmt v l r left right array)) ∧
    ∀ schedule c, (start l r left right array).run fmt schedule = some c →
      (c.Finished → c = ended fmt v l r left right array) ∧
      ∃ rest, c.run fmt rest = some (ended fmt v l r left right array) := by
  obtain ⟨m, hm⟩ : Thread.Reaches fmt l.start (.start l left, l.cells) _ :=
    Thread.reaches_ended l left
  obtain ⟨n, hn⟩ : Thread.Reaches fmt r.start (.start r right, r.cells) _ :=
    Thread.reaches_ended r right
  -- Only the numbers of steps matter, not their order.
  have hall : ∀ schedule : List Side, schedule.count .left = m → schedule.count .right = n →
      (start l r left right array).run fmt schedule =
        some (ended fmt v l r left right array) := by
    intro schedule hcountl hcountr
    rw [run_start hv hsplit, hcountl, hcountr, hm, hn]
    rfl
  refine ⟨⟨m, n, hall _ (Side.count_left_leftFirst m n) (Side.count_right_leftFirst m n)⟩, ?_⟩
  intro schedule c hrun
  have hthreads := hrun
  rw [run_start hv hsplit] at hthreads
  obtain ⟨p, hp, hmap⟩ := Option.bind_eq_some_iff.1 hthreads
  obtain ⟨q, hq, rfl⟩ := Option.map_eq_some_iff.1 hmap
  constructor
  · rintro ⟨hpend, hqend⟩
    obtain rfl := Thread.eq_of_finished hm ⟨rfl, rfl⟩ hp hpend
    obtain rfl := Thread.eq_of_finished hn ⟨rfl, rfl⟩ hq hqend
    rfl
  · obtain ⟨i, hi, -⟩ := Thread.run_of_finished hm ⟨rfl, rfl⟩ hp
    obtain ⟨j, hj, -⟩ := Thread.run_of_finished hn ⟨rfl, rfl⟩ hq
    have hwhole := hall (schedule ++ Side.leftFirst i j)
      (by rw [List.count_append, Side.count_left_leftFirst, hi])
      (by rw [List.count_append, Side.count_right_leftFirst, hj])
    rw [run_append, hrun] at hwhole
    exact ⟨Side.leftFirst i j, hwhole⟩

/-- On the array `10 20 30 40 50 60` the view of the middle four cells is split in two.  The left
program tries index 2, which is a cell of the right half, writes through a narrower view and
reverses its half; the right one splits its half again and exchanges its cells.  They come to their
ends, and always to these. -/
theorem split_halves_independent_nested :
    let cells : List Int → List Cell := List.map .number
    let array := cells [10, 20, 30, 40, 50, 60]
    let v : View Cell := ⟨1, cells [20, 30, 40, 50]⟩
    let l : View Cell := ⟨1, cells [20, 30]⟩
    let r : View Cell := ⟨3, cells [40, 50]⟩
    let left := [.put 2 (.number 9), .sub 1 1 [.put 0 (.number 7)], .reverse]
    let right := [.split 1 [.get 0] [.put 0 (.number 8)], .swap 0 1]
    v.IsOf array ∧ v.splitAt 2 = .ok (l, r) ∧
      (∃ schedule c, (start l r left right array).run Cell.format schedule = some c ∧ c.Finished) ∧
      ∀ schedule c, (start l r left right array).run Cell.format schedule = some c → c.Finished →
        c.array = cells [10, 7, 20, 8, 40, 60] ∧
        c.left.steps = [.error (.index 2 2),
          .ok (.sub 2 1 [.ok (.cell (.number 30), cells [7])], cells [20, 7]),
          .ok (.done, cells [7, 20])] ∧
        c.right.steps = [.ok (.split false (3, 4) (1, 1)
            [.ok (.cell (.number 40), cells [40])] [.ok (.cell (.number 50), cells [8])],
            cells [40, 8]),
          .ok (.done, cells [8, 40])] := by
  intro cells array v l r left right
  have hv : v.IsOf array := ⟨cells [10], cells [60], rfl, rfl⟩
  have hsplit : v.splitAt 2 = .ok (l, r) := rfl
  obtain ⟨⟨m, n, hfirst⟩, hevery⟩ := split_halves_independent Cell.format hv hsplit left right
  refine ⟨hv, hsplit, ⟨_, _, hfirst, ⟨rfl, rfl⟩, rfl, rfl⟩, fun schedule c hrun hend => ?_⟩
  rw [(hevery schedule c hrun).1 hend]
  exact ⟨rfl, rfl, rfl⟩

end Halves

end RegionTypes
