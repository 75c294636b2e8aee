import RegionTypes.Proofs.View.Window

/-!
# Nested views refine a flat array

While a program runs, the whole array is spread over the views that are at work: a narrower view holds
its own cells, and the views around it hold the rest.  A **moment** of a run is the view at work
together with the way in which its cells fit into the whole array.

* `Moment`, `Moment.array` — a moment, and the whole array at it.
* `Moment.Reached` — the moments of a run, read off `ViewOp.run`: before each operation of a program,
  inside `sub`, and inside both halves of `split`.
* `Moment.Reached.fits` — **the window stays in its place**: the array at a moment is a front, the cells
  of the view and a back, and whatever the view holds later stands between the same two.
* `Moment.nested_views_flat` — so an index of the view is an index of the array, shifted by the start
  of the window, and what lies outside the window is left alone.
-/

namespace RegionTypes

variable {i : Nat}

namespace View

variable {α : Type} {v w l r : View α}

theorem get_of_cell {a : α} (h : v.cells[i]? = some a) : v.get i = .ok a := by
  rw [get, h]

theorem isOk_get : (v.get i).isOk ↔ i < v.length := by
  by_cases hi : i < v.length
  · rw [get_of_cell (List.getElem?_eq_getElem hi)]
    exact iff_of_true rfl hi
  · rw [get, List.getElem?_eq_none (Nat.le_of_not_lt hi)]
    exact iff_of_false Bool.false_ne_true hi

end View

namespace ViewOp

variable {α : Type} [DecidableEq α] {fmt : View.CellFormat α} {v : View α} {i j : Nat} {a b : α}

theorem run_get (h : v.cells[i]? = some a) : (get i).run fmt v = succeed (.cell a) v := by
  rw [run, View.get_of_cell h]

theorem run_put (h : v.cells[i]? = some b) :
    (put i a).run fmt v = succeed (.cell b) { v with cells := v.cells.set i a } := by
  rw [run, View.put, View.get_of_cell h]

theorem run_swap (ha : v.cells[i]? = some a) (hb : v.cells[j]? = some b) :
    (swap i j).run fmt v = succeed .done { v with cells := (v.cells.set i b).set j a } := by
  rw [run, View.swap, View.get_of_cell ha, View.get_of_cell hb]

theorem isOk_run_get : ((get i).run fmt v).1.isOk ↔ i < v.length := by
  rw [run, ← View.isOk_get]
  cases v.get i <;> exact Iff.rfl

theorem isOk_run_put : ((put i a).run fmt v).1.isOk ↔ i < v.length := by
  rw [run, View.put, ← View.isOk_get]
  cases v.get i <;> exact Iff.rfl

theorem isOk_run_swap : ((swap i j).run fmt v).1.isOk ↔ i < v.length ∧ j < v.length := by
  rw [run, View.swap, ← View.isOk_get, ← View.isOk_get]
  cases v.get i <;> cases v.get j <;> simp [succeed, Except.isOk, Except.toBool]

/-- **An operation that is refused leaves its view alone.** -/
theorem run_refused {op : ViewOp α} {e : ViewError} (h : (op.run fmt v).1 = .error e) :
    (op.run fmt v).2 = v := by
  cases op <;> rw [run] at h ⊢
  case get | put | swap | sub | split =>
    split
    · next heq =>
      rw [heq] at h
      cases h
    · rfl
  case info | describe => rfl
  case reverse => cases h

end ViewOp

/-- A point of a run. -/
structure Moment (α : Type) where
  /-- The view at work. -/
  view : View α
  /-- What is left of the program on this view. -/
  todo : List (ViewOp α)
  /-- The whole array, with the cells of the view in their place. -/
  place : View α → List α

namespace Moment

variable {α : Type} {initial front back : List α} {program : List (ViewOp α)} {m : Moment α} {size : Nat}
  {v : View α}

/-- The whole array. -/
def array (m : Moment α) : List α := m.place m.view

/-! ### The place of a window -/

/-- Whatever the view holds stands between the same two parts of an array of `size` cells. -/
structure Fits (m : Moment α) (size : Nat) (front back : List α) : Prop where
  start : front.length = m.view.start
  size : front.length + m.view.length + back.length = size
  place : ∀ w : View α, w.window = m.view.window → m.place w = front ++ w.cells ++ back

theorem Fits.array (h : m.Fits size front back) : m.array = front ++ m.view.cells ++ back :=
  h.place m.view rfl

/-- A view whose cells stand between two parts of a wider one. -/
theorem Fits.narrow {widen : View α → View α} {todo : List (ViewOp α)} (h : m.Fits size front back)
    (pre post : List α) (hstart : m.view.start + pre.length = v.start)
    (hwiden : ∀ w : View α, w.window = v.window →
      (widen w).window = m.view.window ∧ (widen w).cells = pre ++ w.cells ++ post) :
    Fits ⟨v, todo, fun w => m.place (widen w)⟩ size (front ++ pre) (post ++ back) where
  start := by
    rw [List.length_append, h.start]
    exact hstart
  size := by
    obtain ⟨hwindow, hcells⟩ := hwiden v rfl
    have hlength : (widen v).cells.length = m.view.length := congrArg Window.length hwindow
    have hsize := h.size
    rw [hcells] at hlength
    simp only [List.length_append] at hlength ⊢
    show front.length + pre.length + v.cells.length + (post.length + back.length) = size
    omega
  place w hw := by
    obtain ⟨hwindow, hcells⟩ := hwiden w hw
    show m.place (widen w) = front ++ pre ++ w.cells ++ (post ++ back)
    rw [h.place (widen w) hwindow, hcells]
    simp only [List.append_assoc]

section Fits

variable (h : m.Fits size front back)
include h

theorem Fits.array_length : m.array.length = size := by
  rw [h.array, List.length_append, List.length_append]
  exact h.size

theorem Fits.end_le : m.view.start + m.view.length ≤ size := by
  have hsize := h.size
  have hstart := h.start
  omega

theorem Fits.cells_eq : m.view.cells = (m.array.drop m.view.start).take m.view.length := by
  rw [h.array, ← h.start, List.append_assoc, List.drop_left, View.length, List.take_left]

/-- Index `i` of the view is index `start + i` of the array. -/
theorem Fits.cell_eq (hi : i < m.view.length) :
    m.view.cells[i]? = m.array[m.view.start + i]? := by
  have hi' : i < m.view.cells.length := hi
  rw [h.array, ← h.start, List.append_assoc, List.getElem?_append_right (Nat.le_add_right _ _),
    Nat.add_sub_cancel_left, List.getElem?_append_left hi']

/-- Writing an index of the view is writing the same index, shifted, of the array around it. -/
theorem Fits.set_eq {cells : List α} (hcells : cells.length = m.view.length) (hi : i < m.view.length)
    (a : α) :
    front ++ cells.set i a ++ back = (front ++ cells ++ back).set (m.view.start + i) a := by
  have hi' : i < cells.length := by omega
  rw [← h.start, List.append_assoc, List.append_assoc,
    List.set_append_right _ _ (Nat.le_add_right _ _), Nat.add_sub_cancel_left,
    List.set_append_left _ _ hi']

end Fits

variable [DecidableEq α] {fmt : View.CellFormat α}

/-- What an operation on the view answers. -/
def answer (fmt : View.CellFormat α) (m : Moment α) (op : ViewOp α) : ViewStep α :=
  (op.run fmt m.view).1

/-- The whole array after an operation on the view. -/
def arrayAfter (fmt : View.CellFormat α) (m : Moment α) (op : ViewOp α) : List α :=
  m.place (op.run fmt m.view).2

/-- The moments of running a program on an array. -/
inductive Reached (fmt : View.CellFormat α) (initial : List α) (program : List (ViewOp α)) :
    Moment α → Prop
  | start : Reached fmt initial program ⟨View.whole initial, program, View.cells⟩
  | next {v : View α} {op : ViewOp α} {rest : List (ViewOp α)} {place : View α → List α}
      (h : Reached fmt initial program ⟨v, op :: rest, place⟩) :
      Reached fmt initial program ⟨(op.run fmt v).2, rest, place⟩
  | sub {v w : View α} {start length : Nat} {body rest : List (ViewOp α)}
      {place : View α → List α}
      (h : Reached fmt initial program ⟨v, .sub start length body :: rest, place⟩)
      (hsub : v.sub start length = .ok w) :
      Reached fmt initial program ⟨w, body, fun w => place (v.replace start w)⟩
  | left {v l r : View α} {mid : Nat} {left right rest : List (ViewOp α)}
      {place : View α → List α}
      (h : Reached fmt initial program ⟨v, .split mid left right :: rest, place⟩)
      (hsplit : v.splitAt mid = .ok (l, r)) :
      Reached fmt initial program ⟨l, left, fun l => place { v with cells := l.cells ++ r.cells }⟩
  /-- The right half starts when the program on the left half has run. -/
  | right {v l r : View α} {mid : Nat} {left right rest : List (ViewOp α)}
      {place : View α → List α}
      (h : Reached fmt initial program ⟨v, .split mid left right :: rest, place⟩)
      (hsplit : v.splitAt mid = .ok (l, r)) :
      Reached fmt initial program ⟨r, right, fun r =>
        place { v with cells := (ViewOp.runAll fmt left l).2.cells ++ r.cells }⟩

theorem Reached.done {ops : List (ViewOp α)} {place : View α → List α}
    (h : Reached fmt initial program ⟨v, ops, place⟩) :
    Reached fmt initial program ⟨(ViewOp.runAll fmt ops v).2, [], place⟩ := by
  induction ops generalizing v with
  | nil =>
    rw [ViewOp.runAll]
    exact h
  | cons op ops ih =>
    rw [ViewOp.runAll]
    exact ih h.next

theorem Fits.next {op : ViewOp α} {rest : List (ViewOp α)} {place : View α → List α}
    (h : Fits ⟨v, op :: rest, place⟩ size front back) :
    Fits ⟨(op.run fmt v).2, rest, place⟩ size front back where
  start := h.start.trans (congrArg Window.start (op.run_window fmt v)).symm
  size := by
    rw [View.length_of_window (op.run_window fmt v)]
    exact h.size
  place w hw := h.place w (hw.trans (op.run_window fmt v))

/-- **The window stays in its place**, however deeply views are nested. -/
theorem Reached.fits (h : m.Reached fmt initial program) :
    ∃ front back, m.Fits initial.length front back := by
  induction h with
  | start =>
    refine ⟨[], [], rfl, ?_, fun w _ => ?_⟩
    · simp [View.whole, View.length]
    · simp
  | next _ ih =>
    obtain ⟨front, back, hfits⟩ := ih
    exact ⟨front, back, hfits.next⟩
  | @sub v w start length body rest place _ hsub ih =>
    obtain ⟨front, back, hfits⟩ := ih
    obtain ⟨hle, hstart, hlength⟩ := View.bounds_of_sub hsub
    refine ⟨_, _, hfits.narrow (v.cells.take start) (v.cells.drop (start + length)) ?_
      fun u hu => ?_⟩
    · show v.start + (v.cells.take start).length = w.start
      have hfront : start ≤ v.cells.length := Nat.le_trans (Nat.le_add_right start length) hle
      rw [List.length_take_of_le hfront, hstart]
    · have hsame : u.length = length := (congrArg Window.length hu).trans hlength
      refine ⟨View.replace_window (by rw [hsame]; exact hle), ?_⟩
      simp only [View.replace, hsame]
  | @left v l r mid left right rest place _ hsplit ih =>
    obtain ⟨front, back, hfits⟩ := ih
    obtain ⟨hcells, hstart, -⟩ := View.halves_of_splitAt hsplit
    refine ⟨_, _, hfits.narrow [] r.cells hstart.symm fun u hu => ⟨?_, rfl⟩⟩
    have hsame : u.cells.length = l.cells.length := congrArg Window.length hu
    refine congrArg (Window.mk v.start) ?_
    show (u.cells ++ r.cells).length = v.cells.length
    rw [hcells, List.length_append, List.length_append, hsame]
  | @right v l r mid left right rest place _ hsplit ih =>
    obtain ⟨front, back, hfits⟩ := ih
    obtain ⟨hcells, -, hstart⟩ := View.halves_of_splitAt hsplit
    have hleft : (ViewOp.runAll fmt left l).2.cells.length = l.cells.length :=
      congrArg Window.length (ViewOp.runAll_window fmt left l)
    refine ⟨_, _, hfits.narrow (ViewOp.runAll fmt left l).2.cells [] ?_ fun u hu => ⟨?_, ?_⟩⟩
    · show v.start + (ViewOp.runAll fmt left l).2.cells.length = r.start
      rw [hleft, hstart]
      rfl
    · have hsame : u.cells.length = r.cells.length := congrArg Window.length hu
      refine congrArg (Window.mk v.start) ?_
      show ((ViewOp.runAll fmt left l).2.cells ++ u.cells).length = v.cells.length
      rw [hcells, List.length_append, List.length_append, hsame, hleft]
    · exact (List.append_nil _).symm

/-! ### Operations on the flat array -/

section Operations

variable (h : m.Fits size front back)
include h

theorem Fits.arrayAfter (op : ViewOp α) :
    m.arrayAfter fmt op = front ++ (op.run fmt m.view).2.cells ++ back :=
  h.place _ (op.run_window fmt m.view)

/-- An operation changes no cell outside the window, and not the number of cells. -/
theorem Fits.arrayAfter_outside (op : ViewOp α) :
    (m.arrayAfter fmt op).length = m.array.length ∧
      ∀ k, k < m.view.start ∨ m.view.start + m.view.length ≤ k →
        (m.arrayAfter fmt op)[k]? = m.array[k]? := by
  have hlength : (op.run fmt m.view).2.cells.length = m.view.cells.length :=
    congrArg Window.length (op.run_window fmt m.view)
  rw [h.arrayAfter op, h.array]
  constructor
  · simp only [List.length_append, hlength]
  · intro k hk
    rw [← h.start, View.length] at hk
    rcases hk with hk | hk
    · simp only [List.append_assoc, List.getElem?_append_left hk]
    · rw [List.getElem?_append_right, List.getElem?_append_right]
      · simp only [List.length_append, hlength]
      · rw [List.length_append]
        exact hk
      · rw [List.length_append, hlength]
        exact hk

theorem Fits.arrayAfter_get (hi : i < m.view.length) :
    ∃ a, m.array[m.view.start + i]? = some a ∧
      m.answer fmt (.get i) = .ok (.cell a, m.view.cells) ∧
      m.arrayAfter fmt (.get i) = m.array := by
  have hcell := List.getElem?_eq_getElem hi
  refine ⟨_, (h.cell_eq hi).symm.trans hcell, ?_, ?_⟩
  · rw [answer, ViewOp.run_get hcell, ViewOp.succeed]
  · rw [h.arrayAfter, ViewOp.run_get hcell, h.array, ViewOp.succeed]

theorem Fits.arrayAfter_put (a : α) (hi : i < m.view.length) :
    ∃ b, m.array[m.view.start + i]? = some b ∧
      m.answer fmt (.put i a) = .ok (.cell b, m.view.cells.set i a) ∧
      m.arrayAfter fmt (.put i a) = m.array.set (m.view.start + i) a := by
  have hcell := List.getElem?_eq_getElem hi
  refine ⟨_, (h.cell_eq hi).symm.trans hcell, ?_, ?_⟩
  · rw [answer, ViewOp.run_put hcell, ViewOp.succeed]
  · rw [h.arrayAfter, ViewOp.run_put hcell, h.array, ← h.set_eq rfl hi, ViewOp.succeed]

theorem Fits.arrayAfter_swap {j : Nat} (hi : i < m.view.length) (hj : j < m.view.length) :
    ∃ a b, m.array[m.view.start + i]? = some a ∧ m.array[m.view.start + j]? = some b ∧
      m.answer fmt (.swap i j) = .ok (.done, (m.view.cells.set i b).set j a) ∧
      m.arrayAfter fmt (.swap i j) =
        (m.array.set (m.view.start + i) b).set (m.view.start + j) a := by
  have ha := List.getElem?_eq_getElem hi
  have hb := List.getElem?_eq_getElem hj
  refine ⟨_, _, (h.cell_eq hi).symm.trans ha, (h.cell_eq hj).symm.trans hb, ?_, ?_⟩
  · rw [answer, ViewOp.run_swap ha hb, ViewOp.succeed]
  · rw [h.arrayAfter, ViewOp.run_swap ha hb, h.array, ← h.set_eq rfl hi,
      ← h.set_eq List.length_set hj, ViewOp.succeed]

end Operations

/-- **Nested views refine a flat array.**  Whatever the program and wherever it has come to, in views
nested to any depth: the cells of the view at work are the stretch of the array under its window; its
indices are those of the array, shifted by the start of the window; `get`, `put` and `swap` succeed
on the indices of the window alone and do to the array what they say; no operation changes the number
of cells or a cell outside the window; an operation that is refused changes nothing; and all this holds
again when the rest of the program on the view has run. -/
theorem nested_views_flat (fmt : View.CellFormat α) (initial : List α) (program : List (ViewOp α))
    (m : Moment α) (hm : m.Reached fmt initial program) :
    m.array.length = initial.length ∧
    m.view.start + m.view.length ≤ m.array.length ∧
    m.view.cells = (m.array.drop m.view.start).take m.view.length ∧
    (∀ i, i < m.view.length → m.view.cells[i]? = m.array[m.view.start + i]?) ∧
    (∀ i, (m.answer fmt (.get i)).isOk ↔ i < m.view.length) ∧
    (∀ i a, (m.answer fmt (.put i a)).isOk ↔ i < m.view.length) ∧
    (∀ i j, (m.answer fmt (.swap i j)).isOk ↔ i < m.view.length ∧ j < m.view.length) ∧
    (∀ i, i < m.view.length → ∃ a, m.array[m.view.start + i]? = some a ∧
      m.answer fmt (.get i) = .ok (.cell a, m.view.cells) ∧
      m.arrayAfter fmt (.get i) = m.array) ∧
    (∀ i a, i < m.view.length → ∃ b, m.array[m.view.start + i]? = some b ∧
      m.answer fmt (.put i a) = .ok (.cell b, m.view.cells.set i a) ∧
      m.arrayAfter fmt (.put i a) = m.array.set (m.view.start + i) a) ∧
    (∀ i j, i < m.view.length → j < m.view.length →
      ∃ a b, m.array[m.view.start + i]? = some a ∧ m.array[m.view.start + j]? = some b ∧
        m.answer fmt (.swap i j) = .ok (.done, (m.view.cells.set i b).set j a) ∧
        m.arrayAfter fmt (.swap i j) =
          (m.array.set (m.view.start + i) b).set (m.view.start + j) a) ∧
    (∀ op, (m.arrayAfter fmt op).length = m.array.length ∧
      ∀ k, k < m.view.start ∨ m.view.start + m.view.length ≤ k →
        (m.arrayAfter fmt op)[k]? = m.array[k]?) ∧
    (∀ op e, m.answer fmt op = .error e → m.arrayAfter fmt op = m.array) ∧
    Reached fmt initial program ⟨(ViewOp.runAll fmt m.todo m.view).2, [], m.place⟩ := by
  obtain ⟨front, back, h⟩ := hm.fits
  refine ⟨h.array_length, h.array_length ▸ h.end_le, h.cells_eq, fun _ => h.cell_eq,
    fun _ => ViewOp.isOk_run_get, fun _ _ => ViewOp.isOk_run_put, fun _ _ => ViewOp.isOk_run_swap,
    fun _ => h.arrayAfter_get, fun _ a => h.arrayAfter_put a, fun _ _ => h.arrayAfter_swap,
    h.arrayAfter_outside, fun op e hop => ?_, hm.done⟩
  rw [h.arrayAfter op, ViewOp.run_refused hop, h.array]

/-- The array `10 20 30 40 50 60` is reversed, its middle four cells are split in two, and the left
half has got a new cell.  Index 2 of the right half is refused, and exchanging the indices 0 and 1 of
this half exchanges the indices 3 and 4 of the array. -/
theorem nested_views_flat_right_half :
    let cells : List Int → List Cell := List.map .number
    let program : List (ViewOp Cell) :=
      [.reverse, .sub 1 4 [.split 2 [.put 0 (.number 9)] [.get 2, .swap 0 1]]]
    ∃ m : Moment Cell, m.Reached Cell.format (cells [10, 20, 30, 40, 50, 60]) program ∧
      m.todo = [.swap 0 1] ∧ m.view = ⟨3, cells [30, 20]⟩ ∧
      m.array = cells [60, 9, 40, 30, 20, 10] ∧
      m.answer Cell.format (.get 2) = .error (.index 2 2) ∧
      m.arrayAfter Cell.format (.get 2) = cells [60, 9, 40, 30, 20, 10] ∧
      m.arrayAfter Cell.format (.swap 0 1) = cells [60, 9, 40, 20, 30, 10] := by
  intro cells program
  have hstart : Reached Cell.format (cells [10, 20, 30, 40, 50, 60]) program _ := .start
  have hmiddle := hstart.next.sub rfl
  have hright := (hmiddle.right rfl).next
  obtain ⟨-, -, -, -, -, -, -, -, -, hswap, -, hrefused, -⟩ :=
    nested_views_flat Cell.format _ program _ hright
  obtain ⟨a, b, ha, hb, -, harray⟩ := hswap 0 1 (by decide) (by decide)
  refine ⟨_, hright, rfl, rfl, rfl, rfl, hrefused (.get 2) _ rfl, ?_⟩
  obtain rfl := Option.some.inj ha
  obtain rfl := Option.some.inj hb
  exact harray

end Moment

end RegionTypes
