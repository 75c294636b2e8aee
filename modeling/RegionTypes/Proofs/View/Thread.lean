import RegionTypes.Proofs.View.Window

/-!
# Programs on views, step by step

`ViewOp.runAll` runs a whole program on the cells of a view and puts the cells back.  A **thread**
runs the same program in place, one operation at a time: entering and leaving a narrower view are
steps of their own, and writes go to the array at once.

* `Thread.step`, `Thread.run` — one step and a number of steps on a stretch of the array.
* `Thread.Inside` — all windows of a thread lie in a stretch, and `Thread.step_inside` — stay there.
* `Thread.step_append` — **a thread touches its own stretch only**: it neither reads nor writes any
  other cell of the array.
* `Thread.reaches_program` — **step by step is all at once**: a thread runs its program to the end,
  with the answers and the cells of `ViewOp.runAll`.
* `Thread.eq_of_finished` — and this is the only end it can come to.
-/

namespace RegionTypes

/-- What a thread goes on with when a program on a narrower view has ended. -/
inductive Caller (α : Type) where
  /-- The program around `sub`: its window, its steps so far and what is left of it. -/
  | sub (window : Window) (steps : List (ViewStep α)) (rest : List (ViewOp α))
  /-- The program around `split`, while the left half is at work and the right half is to come. -/
  | left (window : Window) (steps : List (ViewStep α)) (rest : List (ViewOp α)) (equal : Bool)
      (right : Window) (program : List (ViewOp α))
  /-- The program around `split`, while the right half is at work. -/
  | right (window : Window) (steps : List (ViewStep α)) (rest : List (ViewOp α)) (equal : Bool)
      (left : Window) (leftSteps : List (ViewStep α))

/-- A program at work on a window. -/
structure Thread (α : Type) where
  window : Window
  /-- The steps made so far. -/
  steps : List (ViewStep α)
  todo : List (ViewOp α)
  callers : List (Caller α)

/-- The operation enters a narrower view of a view of `n` cells.  All others are made in one step. -/
def ViewOp.Enters {α : Type} (n : Nat) : ViewOp α → Prop
  | .sub start length _ => start + length ≤ n
  | .split mid .. => mid ≤ n
  | _ => False

namespace Thread

variable {α : Type}

/-- A program about to run on a view. -/
def start (v : View α) (program : List (ViewOp α)) : Thread α := ⟨v.window, [], program, []⟩

/-- A program that has run on a view. -/
def ended (v : View α) (steps : List (ViewStep α)) : Thread α := ⟨v.window, steps, [], []⟩

/-- Nothing is left to do. -/
def Finished (t : Thread α) : Prop := t.todo = [] ∧ t.callers = []

variable [DecidableEq α]

/-- One step on the stretch of an array from `base` on; nothing if the thread has finished. -/
def step (fmt : View.CellFormat α) (base : Nat) (t : Thread α) (cells : List α) :
    Option (Thread α × List α) :=
  match t.todo with
  | .sub start length body :: rest =>
    match (t.window.view base cells).sub start length with
    | .ok v => some (⟨v.window, [], body, .sub t.window t.steps rest :: t.callers⟩, cells)
    | .error e => some ({ t with steps := t.steps ++ [.error e], todo := rest }, cells)
  | .split mid left right :: rest =>
    match (t.window.view base cells).splitAt mid with
    | .ok (l, r) =>
      some (⟨l.window, [], left,
        .left t.window t.steps rest (l == r) r.window right :: t.callers⟩, cells)
    | .error e => some ({ t with steps := t.steps ++ [.error e], todo := rest }, cells)
  | op :: rest =>
    let (answer, v) := op.run fmt (t.window.view base cells)
    some ({ t with steps := t.steps ++ [answer], todo := rest }, t.window.write base v.cells cells)
  | [] =>
    -- a program on a narrower view has ended: its steps become the answer of the operation around it
    match t.callers with
    | [] => none
    | .sub window steps rest :: callers =>
      let answer := .sub t.window.start t.window.length t.steps
      some (⟨window, steps ++ [.ok (answer, (window.view base cells).cells)], rest, callers⟩, cells)
    | .left window steps rest equal right program :: callers =>
      some (⟨right, [], program, .right window steps rest equal t.window t.steps :: callers⟩, cells)
    | .right window steps rest equal left leftSteps :: callers =>
      let answer := .split equal (left.start, t.window.start) (left.length, t.window.length)
        leftSteps t.steps
      some (⟨window, steps ++ [.ok (answer, (window.view base cells).cells)], rest, callers⟩, cells)

/-- A number of steps. -/
def run (fmt : View.CellFormat α) (base : Nat) :
    Nat → Thread α × List α → Option (Thread α × List α)
  | 0, p => some p
  | n + 1, p => (p.1.step fmt base p.2).bind (run fmt base n)

end Thread

/-! ### Staying inside a stretch -/

/-- The windows that a caller goes back to lie in the stretch. -/
def Caller.Inside {α : Type} (base length : Nat) : Caller α → Prop
  | .sub window .. | .right window .. => window.Inside base length
  | .left window _ _ _ half _ => window.Inside base length ∧ half.Inside base length

namespace Thread

variable {α : Type}

/-- All windows of the thread lie in the stretch. -/
structure Inside (t : Thread α) (base length : Nat) : Prop where
  window : t.window.Inside base length
  callers : ∀ c ∈ t.callers, c.Inside base length

theorem Inside.start (v : View α) (program : List (ViewOp α)) :
    (Thread.start v program).Inside v.start v.cells.length :=
  ⟨⟨Nat.le_refl _, Nat.le_refl _⟩, fun _ hc => nomatch hc⟩

variable [DecidableEq α] {fmt : View.CellFormat α} {base : Nat} {cells cells' : List α}
  {t t' : Thread α} {w : Window} {steps : List (ViewStep α)} {rest : List (ViewOp α)}
  {callers : List (Caller α)}

/-! ### What each step does -/

theorem step_of_finished (h : t.Finished) : t.step fmt base cells = none := by
  obtain ⟨w, steps, todo, callers⟩ := t
  obtain ⟨rfl, rfl⟩ := h
  rfl

section

variable (h : w.Inside base cells.length)

include h

/-- An operation that enters no narrower view, because it never does or because it is refused. -/
theorem step_at_once {op : ViewOp α} (hop : ¬ op.Enters w.length) :
    step fmt base ⟨w, steps, op :: rest, callers⟩ cells =
      some (⟨w, steps ++ [(op.run fmt (w.view base cells)).1], rest, callers⟩,
        w.write base (op.run fmt (w.view base cells)).2.cells cells) := by
  cases op with
  | sub start length =>
    have hop : ¬ start + length ≤ w.length := hop
    simp only [step, ViewOp.run, View.sub, Window.view_length h, if_neg hop, Window.write_view h]
  | split mid =>
    have hop : ¬ mid ≤ w.length := hop
    simp only [step, ViewOp.run, View.splitAt, Window.view_length h, if_neg hop, Window.write_view h]
  | _ => rfl

theorem step_sub {start length : Nat} {body : List (ViewOp α)} (hsub : start + length ≤ w.length) :
    step fmt base ⟨w, steps, .sub start length body :: rest, callers⟩ cells =
      some (⟨w.sub start length, [], body, .sub w steps rest :: callers⟩, cells) := by
  simp only [step, Window.view_sub h hsub, Window.view_window (h.sub hsub)]

theorem step_split {mid : Nat} {left right : List (ViewOp α)} (hmid : mid ≤ w.length) :
    step fmt base ⟨w, steps, .split mid left right :: rest, callers⟩ cells =
      some (⟨w.left mid, [], left,
        .left w steps rest ((w.left mid).view base cells == (w.right mid).view base cells)
          (w.right mid) right :: callers⟩, cells) := by
  simp only [step, Window.view_splitAt h hmid, Window.view_window (h.left hmid),
    Window.view_window (h.right hmid)]

theorem run_cells_length (op : ViewOp α) :
    (op.run fmt (w.view base cells)).2.cells.length = w.length :=
  (congrArg Window.length (op.run_window fmt (w.view base cells))).trans (Window.view_length h)

end

/-- **A step stays inside the stretch** and keeps its length. -/
theorem step_inside (h : t.Inside base cells.length)
    (hstep : t.step fmt base cells = some (t', cells')) :
    t'.Inside base cells.length ∧ cells'.length = cells.length := by
  obtain ⟨w, steps, todo, callers⟩ := t
  obtain ⟨hw, hcallers⟩ := h
  cases todo with
  | nil =>
    cases callers with
    | nil => cases hstep
    | cons c =>
      obtain ⟨hc, hrest⟩ := List.forall_mem_cons.1 hcallers
      cases c with
      | sub | right =>
        obtain ⟨rfl, rfl⟩ := Prod.mk.inj (Option.some.inj hstep)
        exact ⟨⟨hc, hrest⟩, rfl⟩
      | left =>
        obtain ⟨rfl, rfl⟩ := Prod.mk.inj (Option.some.inj hstep)
        exact ⟨⟨hc.2, List.forall_mem_cons.2 ⟨hc.1, hrest⟩⟩, rfl⟩
  | cons op =>
    by_cases hop : op.Enters w.length
    · cases op with
      | sub =>
        rw [step_sub hw hop] at hstep
        obtain ⟨rfl, rfl⟩ := Prod.mk.inj (Option.some.inj hstep)
        exact ⟨⟨hw.sub hop, List.forall_mem_cons.2 ⟨hw, hcallers⟩⟩, rfl⟩
      | split =>
        rw [step_split hw hop] at hstep
        obtain ⟨rfl, rfl⟩ := Prod.mk.inj (Option.some.inj hstep)
        exact ⟨⟨hw.left hop, List.forall_mem_cons.2 ⟨⟨hw, hw.right hop⟩, hcallers⟩⟩, rfl⟩
      | _ => exact hop.elim
    · rw [step_at_once hw hop] at hstep
      obtain ⟨rfl, rfl⟩ := Prod.mk.inj (Option.some.inj hstep)
      exact ⟨⟨hw, hcallers⟩, Window.write_length hw (run_cells_length hw op)⟩

/-- **A thread touches its own stretch only.**  On the whole array it does what it does on the
stretch, and leaves the cells around as they are. -/
theorem step_append {before after : List α} (h : t.Inside before.length cells.length) :
    t.step fmt 0 (before ++ cells ++ after) =
      (t.step fmt before.length cells).map fun p => (p.1, before ++ p.2 ++ after) := by
  obtain ⟨w, steps, todo, callers⟩ := t
  obtain ⟨hw, hcallers⟩ := h
  have hw' : w.Inside 0 (before ++ cells ++ after).length := hw.append
  cases todo with
  | nil =>
    cases callers with
    | nil => rfl
    | cons c =>
      obtain ⟨hc, _⟩ := List.forall_mem_cons.1 hcallers
      cases c with
      | sub | right => simp only [step, Window.view_append hc, Option.map_some]
      | left => rfl
  | cons op =>
    by_cases hop : op.Enters w.length
    · cases op with
      | sub =>
        rw [step_sub hw hop, step_sub hw' hop]
        rfl
      | split =>
        rw [step_split hw hop, step_split hw' hop, Window.view_append (hw.left hop),
          Window.view_append (hw.right hop)]
        rfl
      | _ => exact hop.elim
    · rw [step_at_once hw hop, step_at_once hw' hop, Window.view_append hw, Window.write_append hw]
      rfl

/-! ### Runs -/

/-- A number of steps leads from one configuration to the other. -/
def Reaches (fmt : View.CellFormat α) (base : Nat) (p q : Thread α × List α) : Prop :=
  ∃ n, run fmt base n p = some q

section Runs

variable {m n : Nat} {p q r : Thread α × List α}

theorem run_add : run fmt base (m + n) p = (run fmt base m p).bind (run fmt base n) := by
  induction m generalizing p with
  | zero => simp [run]
  | succ m ih =>
    simp only [Nat.succ_add, run, Option.bind_assoc]
    exact Option.bind_congr fun p' _ => ih

theorem Reaches.refl : Reaches fmt base p p := ⟨0, rfl⟩

theorem Reaches.trans (hpq : Reaches fmt base p q) (hqr : Reaches fmt base q r) :
    Reaches fmt base p r := by
  obtain ⟨m, hm⟩ := hpq
  obtain ⟨n, hn⟩ := hqr
  refine ⟨m + n, ?_⟩
  rw [run_add, hm]
  exact hn

theorem Reaches.step (h : t.step fmt base cells = some q) (hqr : Reaches fmt base q r) :
    Reaches fmt base (t, cells) r := by
  obtain ⟨n, hn⟩ := hqr
  refine ⟨n + 1, ?_⟩
  rw [run, h]
  exact hn

/-- **A run that has ended goes on from every point of it.** -/
theorem run_of_finished (hm : run fmt base m p = some q) (hq : q.1.Finished)
    (hn : run fmt base n p = some r) : ∃ k, m = n + k ∧ run fmt base k r = some q := by
  induction n generalizing m p with
  | zero =>
    obtain rfl := Option.some.inj hn
    exact ⟨m, (Nat.zero_add m).symm, hm⟩
  | succ n ih =>
    obtain ⟨p', hstep, hn'⟩ := Option.bind_eq_some_iff.1 hn
    cases m with
    | zero =>
      obtain rfl := Option.some.inj hm
      rw [step_of_finished hq] at hstep
      cases hstep
    | succ =>
      rw [run, hstep] at hm
      obtain ⟨k, rfl, hk⟩ := ih hm hn'
      exact ⟨k, (Nat.succ_add n k).symm, hk⟩

/-- **What a run ends with does not depend on when one looks.** -/
theorem eq_of_finished (hm : run fmt base m p = some q) (hq : q.1.Finished)
    (hn : run fmt base n p = some r) (hr : r.1.Finished) : r = q := by
  obtain ⟨k, -, hk⟩ := run_of_finished hm hq hn
  cases k with
  | zero => exact Option.some.inj hk
  | succ =>
    rw [run, step_of_finished hr] at hk
    cases hk

end Runs

/-! ### Step by step is all at once -/

mutual

/-- An operation is made in some number of steps, with the answer and the cells that it has when it
is made at once. -/
theorem reaches_op (fmt : View.CellFormat α) (base : Nat) : ∀ (op : ViewOp α) {w : Window}
    {steps : List (ViewStep α)} {rest : List (ViewOp α)} {callers : List (Caller α)}
    {cells : List α}, w.Inside base cells.length →
    Reaches fmt base (⟨w, steps, op :: rest, callers⟩, cells)
      (⟨w, steps ++ [(op.run fmt (w.view base cells)).1], rest, callers⟩,
        w.write base (op.run fmt (w.view base cells)).2.cells cells)
  | .sub start length body, w, steps, rest, callers, cells, h => by
    have hkeep := (ViewOp.run_window fmt (.sub start length body) _).trans (Window.view_window h)
    by_cases hsub : start + length ≤ w.length
    · have hbody := congrArg Window.length
        ((ViewOp.runAll_window fmt body _).trans (Window.view_window (h.sub hsub)))
      rw [ViewOp.run, Window.view_sub h hsub] at hkeep ⊢
      refine .step (step_sub h hsub) ((reaches_program fmt base body (h.sub hsub)).trans ?_)
      refine .step ?_ .refl
      simp only [step, ViewOp.succeed, List.nil_append] at hkeep ⊢
      rw [Window.write_sub h hsub hbody, Window.view_write_of_window h hkeep,
        Window.view_length (h.sub hsub)]
      rfl
    · exact .step (step_at_once h hsub) .refl
  | .split mid left right, w, steps, rest, callers, cells, h => by
    have hkeep := (ViewOp.run_window fmt (.split mid left right) _).trans (Window.view_window h)
    by_cases hmid : mid ≤ w.length
    · have hl := (ViewOp.runAll_window fmt left _).trans (Window.view_window (h.left hmid))
      have hfill := congrArg Window.length hl
      have hinside : (w.right mid).Inside base ((w.left mid).write base
          (ViewOp.runAll fmt left ((w.left mid).view base cells)).2.cells cells).length := by
        rw [Window.write_length (h.left hmid) hfill]
        exact h.right hmid
      rw [ViewOp.run, Window.view_splitAt h hmid] at hkeep ⊢
      refine .step (step_split h hmid) ((reaches_program fmt base left (h.left hmid)).trans ?_)
      refine .step rfl ((reaches_program fmt base right hinside).trans ?_)
      refine .step ?_ .refl
      -- the left program has left the cells of the right half alone
      rw [Window.view_right_write_left h hmid hfill]
      simp only [step, ViewOp.succeed, List.nil_append] at hkeep ⊢
      rw [Window.write_split h hmid hfill, Window.view_write_of_window h hkeep,
        Window.view_length (h.left hmid), Window.view_length (h.right hmid)]
      rfl
    · exact .step (step_at_once h hmid) .refl
  | .get i, _, _, _, _, _, h => .step (step_at_once h id) .refl
  | .put i a, _, _, _, _, _, h => .step (step_at_once h id) .refl
  | .swap i j, _, _, _, _, _, h => .step (step_at_once h id) .refl
  | .info, _, _, _, _, _, h => .step (step_at_once h id) .refl
  | .describe, _, _, _, _, _, h => .step (step_at_once h id) .refl
  | .reverse, _, _, _, _, _, h => .step (step_at_once h id) .refl

/-- **Step by step is all at once.**  A program comes to its end with the answers and the cells that
it has when it is run at once. -/
theorem reaches_program (fmt : View.CellFormat α) (base : Nat) : ∀ (ops : List (ViewOp α))
    {w : Window} {steps : List (ViewStep α)} {callers : List (Caller α)} {cells : List α},
    w.Inside base cells.length →
    Reaches fmt base (⟨w, steps, ops, callers⟩, cells)
      (⟨w, steps ++ (ViewOp.runAll fmt ops (w.view base cells)).1, [], callers⟩,
        w.write base (ViewOp.runAll fmt ops (w.view base cells)).2.cells cells)
  | [], w, steps, callers, cells, h => by
    rw [ViewOp.runAll, List.append_nil, Window.write_view h]
    exact .refl
  | op :: ops, w, steps, callers, cells, h => by
    have hkeep := (op.run_window fmt (w.view base cells)).trans (Window.view_window h)
    have hfill := congrArg Window.length hkeep
    have hinside : w.Inside base
        (w.write base (op.run fmt (w.view base cells)).2.cells cells).length := by
      rw [Window.write_length h hfill]
      exact h
    have hrest : Reaches fmt base
        (⟨w, steps ++ [(op.run fmt (w.view base cells)).1], ops, callers⟩, _) _ :=
      reaches_program fmt base ops hinside
    rw [Window.view_write_of_window h hkeep, Window.write_write h hfill, List.append_assoc] at hrest
    exact (reaches_op fmt base op h).trans hrest

end

/-- A program on a view, run on the view's own cells. -/
theorem reaches_ended (v : View α) (program : List (ViewOp α)) :
    Reaches fmt v.start (start v program, v.cells)
      (ended v (ViewOp.runAll fmt program v).1, (ViewOp.runAll fmt program v).2.cells) := by
  have hparts : v.window.Parts v.start [] v.cells [] v.cells := ⟨(List.append_nil _).symm, rfl, rfl⟩
  have hrun : Reaches fmt v.start (⟨v.window, [], program, []⟩, v.cells) _ :=
    reaches_program fmt v.start program (Inside.start v program).window
  rwa [hparts.view, hparts.write, List.append_nil] at hrun

end Thread

end RegionTypes
