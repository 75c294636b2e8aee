import RegionTypes.View.Program

/-!
# Windows on a stretch of an array

A view carries the cells of its window.  Here a window is kept apart from the cells: it is a place in
an array, and reading and writing it works on a **stretch** of the array, the cells from a position
`base` on.  With `base = 0` the stretch is the whole array.

* `Window.view`, `Window.write` — the view of a window and the stretch with new cells in the window.
* `Window.view_append`, `Window.write_append` — **locality**: a window inside a part of the array is
  read and written in this part alone.
* `Window.view_sub`, `Window.view_splitAt` — the narrower views of `View.sub` and `View.splitAt` are
  views of narrower windows; `Window.write_sub` and `Window.write_split` say what writing these does
  to the wider window.
* `ViewOp.runAll_window` — a program keeps the window of its view.
-/

namespace RegionTypes

/-- A place in an array. -/
structure Window where
  start : Nat
  length : Nat
  deriving DecidableEq, Repr

/-- The window of a view. -/
def View.window {α : Type} (v : View α) : Window := ⟨v.start, v.length⟩

variable {start length : Nat}

namespace Window

variable {α : Type} {w u : Window} {base size : Nat} {cells new front middle back before after : List α}

/-- The window lies in the stretch of `length` cells from `base` on. -/
def Inside (w : Window) (base length : Nat) : Prop :=
  base ≤ w.start ∧ w.start + w.length ≤ base + length

/-- The view of a window on a stretch. -/
def view (w : Window) (base : Nat) (cells : List α) : View α :=
  ⟨w.start, (cells.drop (w.start - base)).take w.length⟩

/-- The stretch with new cells in the window. -/
def write (w : Window) (base : Nat) (new cells : List α) : List α :=
  cells.take (w.start - base) ++ new ++ cells.drop (w.start - base + w.length)

/-- The stretch before, in and after a window. -/
structure Parts (w : Window) (base : Nat) (front middle back cells : List α) : Prop where
  cells : cells = front ++ middle ++ back
  front : base + front.length = w.start
  middle : middle.length = w.length

theorem Inside.parts (h : w.Inside base cells.length) :
    ∃ front middle back, w.Parts base front middle back cells := by
  obtain ⟨hstart, hend⟩ := h
  refine ⟨cells.take (w.start - base), (cells.drop (w.start - base)).take w.length,
    (cells.drop (w.start - base)).drop w.length, ?_, ?_, ?_⟩
  · rw [List.append_assoc, List.take_append_drop, List.take_append_drop]
  · rw [List.length_take]
    omega
  · rw [List.length_take, List.length_drop]
    omega

namespace Parts

variable (h : w.Parts base front middle back cells)

include h

theorem view : w.view base cells = ⟨w.start, middle⟩ := by
  obtain ⟨rfl, hfront, hmiddle⟩ := h
  have hoffset : w.start - base = front.length := by omega
  rw [Window.view, hoffset, ← hmiddle, List.append_assoc, List.drop_left, List.take_left]

theorem write : w.write base new cells = front ++ new ++ back := by
  obtain ⟨rfl, hfront, hmiddle⟩ := h
  have hoffset : w.start - base = front.length := by omega
  have hafter : w.start - base + w.length = (front ++ middle).length := by
    rw [List.length_append]
    omega
  rw [Window.write, hafter, hoffset, List.drop_left, List.append_assoc front, List.take_left]

theorem written (hnew : new.length = w.length) :
    w.Parts base front new back (w.write base new cells) :=
  ⟨h.write, h.front, hnew⟩

end Parts

section

variable (h : w.Inside base cells.length)

include h

theorem view_window : (w.view base cells).window = w := by
  obtain ⟨front, middle, back, h⟩ := h.parts
  rw [h.view]
  exact congrArg (Window.mk w.start) h.middle

theorem view_length : (w.view base cells).length = w.length :=
  congrArg Window.length (view_window h)

theorem write_length (hnew : new.length = w.length) :
    (w.write base new cells).length = cells.length := by
  obtain ⟨front, middle, back, h⟩ := h.parts
  rw [h.write, h.cells]
  simp only [List.length_append, hnew, h.middle]

theorem write_view : w.write base (w.view base cells).cells cells = cells := by
  obtain ⟨front, middle, back, h⟩ := h.parts
  rw [h.view, h.write, h.cells]

theorem view_write_of_window {v : View α} (hv : v.window = w) :
    w.view base (w.write base v.cells cells) = v := by
  subst hv
  obtain ⟨front, middle, back, h⟩ := h.parts
  exact (h.written rfl).view

theorem write_write {new' : List α} (hnew : new.length = w.length) :
    w.write base new' (w.write base new cells) = w.write base new' cells := by
  obtain ⟨front, middle, back, h⟩ := h.parts
  rw [(h.written hnew).write, h.write]

end

/-! ### Locality -/

section

variable (h : w.Inside before.length cells.length)

include h

theorem Inside.append : w.Inside 0 (before ++ cells ++ after).length := by
  obtain ⟨hstart, hend⟩ := h
  refine ⟨Nat.zero_le _, ?_⟩
  simp only [List.length_append]
  omega

omit h in
theorem Parts.append (h : w.Parts before.length front middle back cells) :
    w.Parts 0 (before ++ front) middle (back ++ after) (before ++ cells ++ after) where
  cells := by simp only [h.cells, List.append_assoc]
  front := by rw [List.length_append, Nat.zero_add, h.front]
  middle := h.middle

/-- A window inside a part of the array reads this part alone. -/
theorem view_append : w.view 0 (before ++ cells ++ after) = w.view before.length cells := by
  obtain ⟨front, middle, back, h⟩ := h.parts
  rw [h.view, h.append.view]

/-- A window inside a part of the array writes this part alone. -/
theorem write_append : w.write 0 new (before ++ cells ++ after) =
      before ++ w.write before.length new cells ++ after := by
  obtain ⟨front, middle, back, h⟩ := h.parts
  rw [h.write, h.append.write]
  simp only [List.append_assoc]

end

/-! ### Narrower windows -/

/-- The window of `length` cells from `start` on. -/
def sub (w : Window) (start length : Nat) : Window := ⟨w.start + start, length⟩

theorem Inside.sub (h : w.Inside base size) (hsub : start + length ≤ w.length) :
    (w.sub start length).Inside base size := by
  obtain ⟨hstart, hend⟩ := h
  exact ⟨by simp only [Window.sub]; omega, by simp only [Window.sub]; omega⟩

theorem Parts.sub {left right : List α} (h : w.Parts base front (left ++ middle ++ right) back cells)
    (hleft : left.length = start) (hmiddle : middle.length = length) :
    (w.sub start length).Parts base (front ++ left) middle (right ++ back) cells where
  cells := by simp only [h.cells, List.append_assoc]
  front := by rw [List.length_append, ← Nat.add_assoc, h.front, hleft, Window.sub]
  middle := hmiddle

section Sub

variable (h : w.Inside base cells.length)

include h

/-- A window, a narrower one in it, and the cells around both. -/
theorem exists_sub_parts (hsub : start + length ≤ w.length) :
    ∃ front left middle right back, w.Parts base front (left ++ middle ++ right) back cells ∧
      left.length = start ∧ middle.length = length := by
  obtain ⟨front, inner, back, h⟩ := h.parts
  have hinside : (⟨start, length⟩ : Window).Inside 0 inner.length := by
    rw [h.middle]
    exact ⟨Nat.zero_le _, by rwa [Nat.zero_add]⟩
  obtain ⟨left, middle, right, rfl, hleft, hmiddle⟩ := hinside.parts
  exact ⟨front, left, middle, right, back, h, (Nat.zero_add _).symm.trans hleft, hmiddle⟩

theorem view_sub (hsub : start + length ≤ w.length) :
    (w.view base cells).sub start length = .ok ((w.sub start length).view base cells) := by
  obtain ⟨front, left, middle, right, back, h, rfl, rfl⟩ := exists_sub_parts h hsub
  rw [h.view, (h.sub rfl rfl).view, View.sub, if_pos (by rw [View.length, h.middle]; exact hsub),
    List.append_assoc, List.drop_left, List.take_left]
  rfl

/-- Writing the narrower window is putting its cells back into the wider view. -/
theorem write_sub {v : View α} (hsub : start + length ≤ w.length) (hv : v.length = length) :
    (w.sub start length).write base v.cells cells =
      w.write base ((w.view base cells).replace start v).cells cells := by
  obtain ⟨front, left, middle, right, back, h, rfl, rfl⟩ := exists_sub_parts h hsub
  have htake : (left ++ middle ++ right).take left.length = left := by
    rw [List.append_assoc, List.take_left]
  have hdrop : (left ++ middle ++ right).drop (left.length + v.length) = right := by
    rw [hv, ← List.length_append, List.drop_left]
  rw [(h.sub rfl rfl).write, h.view, h.write]
  simp only [View.replace, htake, hdrop]
  simp only [List.append_assoc]

end Sub

/-! ### Halves -/

/-- The window up to `mid`. -/
def left (w : Window) (mid : Nat) : Window := w.sub 0 mid

/-- The window from `mid` on. -/
def right (w : Window) (mid : Nat) : Window := w.sub mid (w.length - mid)

section Halves

variable {mid : Nat} {l r : List α}

theorem Inside.left (h : w.Inside base size) (hmid : mid ≤ w.length) :
    (w.left mid).Inside base size :=
  h.sub (by omega)

theorem Inside.right (h : w.Inside base size) (hmid : mid ≤ w.length) :
    (w.right mid).Inside base size :=
  h.sub (by omega)

theorem Parts.left (h : w.Parts base front (l ++ r) back cells) (hl : l.length = mid) :
    (w.left mid).Parts base front l (r ++ back) cells :=
  ⟨by simp only [h.cells, List.append_assoc], h.front, hl⟩

theorem Parts.right (h : w.Parts base front (l ++ r) back cells) (hl : l.length = mid) :
    (w.right mid).Parts base (front ++ l) r back cells := by
  have hlength := h.middle
  rw [List.length_append] at hlength
  rw [← List.append_nil (l ++ r)] at h
  exact h.sub hl (by omega)

theorem Parts.write_left (h : w.Parts base front (l ++ r) back cells) (hl : l.length = mid)
    (hnew : new.length = mid) :
    w.Parts base front (new ++ r) back ((w.left mid).write base new cells) where
  cells := by simp only [(h.left hl).write, List.append_assoc]
  front := h.front
  middle := by rw [← h.middle, List.length_append, List.length_append, hnew, hl]

variable (h : w.Inside base cells.length) (hmid : mid ≤ w.length)

include h

include hmid

/-- The two halves of a window and the cells around them. -/
theorem exists_halves :
    ∃ front l r back, w.Parts base front (l ++ r) back cells ∧ l.length = mid := by
  obtain ⟨front, inner, back, h⟩ := h.parts
  rw [← List.take_append_drop mid inner] at h
  refine ⟨front, _, _, back, h, List.length_take_of_le ?_⟩
  rwa [← h.middle, List.take_append_drop] at hmid

/-- The two adjoining views are the views of the two halves. -/
theorem view_splitAt : (w.view base cells).splitAt mid =
      .ok ((w.left mid).view base cells, (w.right mid).view base cells) := by
  obtain ⟨front, l, r, back, h, rfl⟩ := exists_halves h hmid
  rw [h.view, (h.left rfl).view, (h.right rfl).view, View.splitAt,
    if_pos (by rw [View.length, h.middle]; exact hmid), List.take_left, List.drop_left]
  rfl

/-- **Writing the left half does not show in the right one.** -/
theorem view_right_write_left (hnew : new.length = mid) :
    (w.right mid).view base ((w.left mid).write base new cells) = (w.right mid).view base cells := by
  obtain ⟨front, l, r, back, h, hl⟩ := exists_halves h hmid
  rw [((h.write_left hl hnew).right hnew).view, (h.right hl).view]

theorem write_split (hl : l.length = mid) :
    (w.right mid).write base r ((w.left mid).write base l cells) = w.write base (l ++ r) cells := by
  obtain ⟨front, l', r', back, h, hl'⟩ := exists_halves h hmid
  rw [((h.write_left hl' hl).right hl).write, h.write]
  simp only [List.append_assoc]

end Halves

end Window

/-! ### Programs keep their window -/

namespace View

variable {α : Type} {v w l r : View α}

theorem length_of_window (h : v.window = w.window) : v.length = w.length := congrArg Window.length h

theorem replace_window (h : start + w.length ≤ v.length) :
    (v.replace start w).window = v.window := by
  refine congrArg (Window.mk v.start) ?_
  simp only [View.length] at h ⊢
  simp only [replace, View.length, List.length_append, List.length_take, List.length_drop]
  omega

/-- What a narrower view has of the wider one. -/
theorem bounds_of_sub (h : v.sub start length = .ok w) :
    start + length ≤ v.length ∧ w.start = v.start + start ∧ w.length = length := by
  unfold sub at h
  split at h
  · next hle =>
    obtain rfl := Except.ok.inj h
    refine ⟨hle, rfl, ?_⟩
    simp only [View.length, List.length_take, List.length_drop] at hle ⊢
    omega
  · cases h

/-- The halves of a view adjoin each other. -/
theorem halves_of_splitAt {mid : Nat} (h : v.splitAt mid = .ok (l, r)) :
    v.cells = l.cells ++ r.cells ∧ l.start = v.start ∧ r.start = v.start + l.length := by
  unfold splitAt at h
  split at h
  · next hle =>
    obtain ⟨rfl, rfl⟩ := Prod.mk.inj (Except.ok.inj h)
    refine ⟨(List.take_append_drop mid v.cells).symm, rfl, ?_⟩
    show v.start + mid = v.start + (v.cells.take mid).length
    rw [List.length_take_of_le hle]
  · cases h

end View

namespace ViewOp

variable {α : Type} [DecidableEq α]

mutual

theorem run_window (fmt : View.CellFormat α) : ∀ (op : ViewOp α) (v : View α),
    (op.run fmt v).2.window = v.window
  | get i, v => by
    rw [run]
    split <;> rfl
  | put i a, v => by
    rw [run, View.put]
    cases v.get i with
    | ok => exact congrArg (Window.mk v.start) List.length_set
    | error => rfl
  | swap i j, v => by
    rw [run, View.swap]
    cases v.get i with
    | ok =>
      cases v.get j with
      | ok => exact congrArg (Window.mk v.start) (List.length_set.trans List.length_set)
      | error => rfl
    | error => rfl
  | info, v => by
    rw [run]
    rfl
  | describe, v => by
    rw [run]
    rfl
  | reverse, v => by
    rw [run]
    exact congrArg (Window.mk v.start) List.length_reverse
  | sub start length body, v => by
    rw [run]
    split
    · next w hw =>
      obtain ⟨hle, -, hlength⟩ := View.bounds_of_sub hw
      exact View.replace_window (by rwa [View.length_of_window (runAll_window fmt body w), hlength])
    · rfl
  | split mid left right, v => by
    rw [run]
    split
    · next l r hlr =>
      obtain ⟨hcells, -⟩ := View.halves_of_splitAt hlr
      have hleft := View.length_of_window (runAll_window fmt left l)
      have hright := View.length_of_window (runAll_window fmt right r)
      refine congrArg (Window.mk v.start) (List.length_append.trans ?_)
      rw [View.length] at hleft hright
      rw [hleft, hright]
      exact List.length_append.symm.trans (congrArg List.length hcells.symm)
    · rfl

theorem runAll_window (fmt : View.CellFormat α) : ∀ (ops : List (ViewOp α)) (v : View α),
    (runAll fmt ops v).2.window = v.window
  | [], v => by
    rw [runAll]
  | op :: ops, v => by
    rw [runAll]
    exact (runAll_window fmt ops _).trans (run_window fmt op v)

end

end ViewOp

end RegionTypes
