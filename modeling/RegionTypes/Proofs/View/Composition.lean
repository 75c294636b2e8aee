import Mathlib.Algebra.Group.Nat.Defs
import RegionTypes.Proofs.View.Flat

/-!
# Windows of windows

Ranges are given in words of 64 bits, and the sum of two words may wrap around.  The ranges that a view
accepts do not: they end inside the window, and the window lies inside the array.

* `View.sub_sub` — a window of a window is one window.
* `View.subs_of_splitAt` — the halves of a view are two of its windows.
* `UInt64.toNat_add_of_le` — words add up as numbers below the length of an array.
* `Moment.windows_compose` — **windows compose without overflow**, in views nested to any depth.
-/

namespace RegionTypes

namespace View

variable {α : Type} {v w u l r : View α} {start length first count mid : Nat}

theorem isOk_sub : (v.sub start length).isOk ↔ start + length ≤ v.length := by
  unfold sub
  split
  · next hle => exact iff_of_true rfl hle
  · next hle => exact iff_of_false Bool.false_ne_true hle

theorem isOk_splitAt : (v.splitAt mid).isOk ↔ mid ≤ v.length := by
  unfold splitAt
  split
  · next hle => exact iff_of_true rfl hle
  · next hle => exact iff_of_false Bool.false_ne_true hle

theorem eq_of_sub (h : v.sub start length = .ok w) :
    w = ⟨v.start + start, (v.cells.drop start).take length⟩ := by
  rw [sub, if_pos (bounds_of_sub h).1] at h
  exact (Except.ok.inj h).symm

theorem sub_sub (h : v.sub start length = .ok w) (h' : w.sub first count = .ok u) :
    v.sub (start + first) count = .ok u := by
  obtain ⟨hle, -, hlength⟩ := bounds_of_sub h
  obtain ⟨hle', -, -⟩ := bounds_of_sub h'
  rw [sub, if_pos (by omega), eq_of_sub h', eq_of_sub h]
  have hcount : min count (length - first) = count := Nat.min_eq_left (by omega)
  simp only [List.drop_take, List.take_take, List.drop_drop, hcount, Nat.add_assoc]

theorem not_inside_of_sub {e : ViewError} (h : w.sub first count = .error e) :
    ¬ (w.window.sub first count).Inside w.start w.length := by
  rintro ⟨-, hend⟩
  have hle : w.start + first + count ≤ w.start + w.length := hend
  rw [sub, if_pos (by omega)] at h
  cases h

theorem subs_of_splitAt (h : v.splitAt mid = .ok (l, r)) :
    v.sub 0 mid = .ok l ∧ v.sub mid (v.length - mid) = .ok r := by
  have hmid : mid ≤ v.length := isOk_splitAt.1 (by rw [h]; rfl)
  rw [splitAt, if_pos hmid] at h
  obtain ⟨rfl, rfl⟩ := Prod.mk.inj (Except.ok.inj h)
  rw [sub, sub, if_pos (by omega), if_pos (by omega)]
  refine ⟨rfl, ?_⟩
  rw [List.take_of_length_le (by simp [length])]

end View

/-- Words add up as numbers as long as the sum is in a range of words. -/
theorem UInt64.toNat_add_of_le {a b : UInt64} {size : Nat} (h : a.toNat + b.toNat ≤ size)
    (hsize : size < 2 ^ 64) : (a + b).toNat = a.toNat + b.toNat := by
  rw [UInt64.toNat_add, Nat.mod_eq_of_lt (Nat.lt_of_le_of_lt h hsize)]

namespace Moment

variable {α : Type} [DecidableEq α]

/-- **Windows compose without overflow.**  In every program on an array whose length is a word, at every
moment and so in views nested to any depth: the window at work ends inside the array.  A range of words is
accepted if and only if it ends inside the window, and where it starts in the array is the sum of two
words, which does not wrap around.  A range accepted inside it is the range of the first view that starts
at the sum of the two words; a range refused there does not lie inside the narrower window.  A view is
split at a word if and only if the word is at most its length, and then into the two ranges that the word
divides it into. -/
theorem windows_compose (fmt : View.CellFormat α) (initial : List α) (hsize : initial.length < 2 ^ 64)
    (program : List (ViewOp α)) (m : Moment α) (hm : m.Reached fmt initial program) :
    m.view.start + m.view.length ≤ initial.length ∧
    (∀ start length : UInt64,
      ((m.view.sub start.toNat length.toNat).isOk ↔
        start.toNat + length.toNat ≤ m.view.length) ∧
      ∀ w, m.view.sub start.toNat length.toNat = .ok w →
        w.start = (UInt64.ofNat m.view.start + start).toNat ∧ w.start ≤ initial.length ∧
        ∀ first count : UInt64,
          (∀ u, w.sub first.toNat count.toNat = .ok u →
            m.view.sub (start + first).toNat count.toNat = .ok u) ∧
          ∀ e, w.sub first.toNat count.toNat = .error e →
            ¬ (w.window.sub first.toNat count.toNat).Inside w.start w.length) ∧
    ∀ mid : UInt64,
      ((m.view.splitAt mid.toNat).isOk ↔ mid.toNat ≤ m.view.length) ∧
      ∀ l r, m.view.splitAt mid.toNat = .ok (l, r) →
        m.view.sub 0 mid.toNat = .ok l ∧
        m.view.sub mid.toNat (m.view.length - mid.toNat) = .ok r ∧
        r.start = (UInt64.ofNat m.view.start + mid).toNat := by
  obtain ⟨front, back, hfits⟩ := hm.fits
  have hend := hfits.end_le
  have hword : (UInt64.ofNat m.view.start).toNat = m.view.start :=
    UInt64.toNat_ofNat_of_lt (Nat.lt_of_le_of_lt (by omega) hsize)
  have hshift {start : UInt64} (h : start.toNat ≤ m.view.length) :
      (UInt64.ofNat m.view.start + start).toNat = m.view.start + start.toNat := by
    rw [UInt64.toNat_add_of_le (by omega) hsize, hword]
  refine ⟨hend, fun start length => ⟨View.isOk_sub, fun w hw => ?_⟩,
    fun mid => ⟨View.isOk_splitAt, fun l r hsplit => ?_⟩⟩
  · obtain ⟨hle, hstart, hlength⟩ := View.bounds_of_sub hw
    refine ⟨by rw [hstart, hshift (by omega)], by omega, fun first count =>
      ⟨fun u hu => ?_, fun e => View.not_inside_of_sub⟩⟩
    have hle' := (View.bounds_of_sub hu).1
    rw [UInt64.toNat_add_of_le (by omega) hsize]
    exact View.sub_sub hw hu
  · obtain ⟨hleft, hright⟩ := View.subs_of_splitAt hsplit
    obtain ⟨hle, hstart, -⟩ := View.bounds_of_sub hright
    exact ⟨hleft, hright, by rw [hstart, hshift (by omega)]⟩

/-- In the middle four of six cells: two cells from 1 on in the three cells from 1 on are the two cells from
2 on, and a start is refused whose sum with the length wraps around to 0. -/
theorem windows_compose_wrapping :
    let cells : List Cell := [10, 20, 30, 40, 50, 60].map .number
    let program : List (ViewOp Cell) := [.sub 1 4 []]
    ∃ m : Moment Cell, m.Reached Cell.format cells program ∧ m.view.start = 1 ∧
      m.view.sub 2 2 = .ok ⟨3, [40, 50].map .number⟩ ∧
      (0xFFFFFFFFFFFFFFFE + 2 : UInt64) = 0 ∧
      ¬ (m.view.sub (0xFFFFFFFFFFFFFFFE : UInt64).toNat (2 : UInt64).toNat).isOk := by
  intro cells program
  have hstart : Reached Cell.format cells program _ := .start
  have hmiddle := hstart.sub (w := ⟨1, [20, 30, 40, 50].map .number⟩) rfl
  obtain ⟨-, hranges, -⟩ := windows_compose Cell.format cells (by decide) program _ hmiddle
  obtain ⟨-, hinside⟩ := hranges 1 3
  obtain ⟨-, -, hcompose⟩ := hinside ⟨2, [30, 40, 50].map .number⟩ rfl
  refine ⟨_, hmiddle, rfl, (hcompose 1 2).1 _ rfl, by decide, ?_⟩
  rw [(hranges 0xFFFFFFFFFFFFFFFE 2).1]
  decide

end Moment

end RegionTypes
