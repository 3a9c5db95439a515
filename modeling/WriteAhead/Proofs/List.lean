import Mathlib.Algebra.GroupWithZero.Nat
import Mathlib.Data.List.Nodup
import Mathlib.Data.List.Perm.Basic

/-!
# List lemmas for the standard library

Lemmas about single elements of a list, one that is found and erased and one that is replaced, and
about the positions of those with a property.
-/

namespace List

variable {α β : Type}

/-- The element that `find?` finds stands in front of what `eraseP` leaves. -/
theorem perm_cons_eraseP {l : List α} {p : α → Bool} {c : α} (h : l.find? p = some c) :
    l.Perm (c :: l.eraseP p) := by
  obtain ⟨hp, before, after, rfl, hbefore⟩ := find?_eq_some_iff_append.mp h
  rw [eraseP_append_right _ (by simpa using hbefore), eraseP_cons_of_pos hp]
  exact perm_middle

/-- Replacing an element by itself with `set` changes nothing. -/
theorem set_eq_self {l : List α} {k : Nat} {a : α} (h : l[k]? = some a) : l.set k a = l := by
  obtain ⟨hk, rfl⟩ := getElem?_eq_some_iff.mp h
  exact set_getElem_self hk

/-- Replacing an element with `set` trades its image under `filterMap` for that of the new one. -/
theorem filterMap_set_perm {l : List α} {k : Nat} {a : α} (h : l[k]? = some a) (f : α → Option β)
    (b : α) : ((f a).toList ++ (l.set k b).filterMap f).Perm ((f b).toList ++ l.filterMap f) := by
  obtain ⟨hk, rfl⟩ := getElem?_eq_some_iff.mp h
  have hcons : ∀ x, (x :: l.eraseIdx k).filterMap f =
      (f x).toList ++ (l.eraseIdx k).filterMap f := by
    intro x
    cases hx : f x <;> simp [hx]
  have hset := (set_perm_cons_eraseIdx hk b).filterMap f
  have hget := (getElem_cons_eraseIdx_perm hk).filterMap f
  rw [hcons] at hset hget
  refine (hset.append_left _).trans ?_
  rw [← append_assoc]
  refine (perm_append_comm.append_right _).trans ?_
  rw [append_assoc]
  exact hget.append_left _

/-- Replacing an element by one with the same image leaves `filterMap` as it is. -/
theorem filterMap_set_eq {l : List α} {k : Nat} {a b : α} (h : l[k]? = some a)
    {f : α → Option β} (hf : f b = f a) : (l.set k b).filterMap f = l.filterMap f := by
  induction l generalizing k with
  | nil => rfl
  | cons x xs ih =>
    cases k with
    | zero =>
      obtain rfl : x = a := by simpa using h
      simp [filterMap_cons, hf]
    | succ k =>
      simp only [set_cons_succ, filterMap_cons]
      rw [ih (by simpa using h)]

/-- Replacing an element that has an image under `f` replaces the image where it stands in
`filterMap f`. -/
theorem filterMap_set_of_some {l : List α} {k : Nat} {a : α} (h : l[k]? = some a) {f : α → Option β}
    {x : β} (hx : f a = some x) : ∃ before after, l.filterMap f = before ++ x :: after ∧
      ∀ b y, f b = some y → (l.set k b).filterMap f = before ++ y :: after := by
  obtain ⟨hk, hget⟩ := getElem?_eq_some_iff.mp h
  have hset (b : α) (y : β) (hy : f b = some y) : (l.set k b).filterMap f =
      (l.take k).filterMap f ++ y :: (l.drop (k + 1)).filterMap f := by
    rw [set_eq_take_append_cons_drop, if_pos hk, filterMap_append, filterMap_cons_some hy]
  refine ⟨_, _, ?_, hset⟩
  have hself := hset a x hx
  rwa [← hget, set_getElem_self] at hself

/-- Replacing an element with `set` trades its summand for that of the new one. -/
theorem sum_map_set {l : List α} {k : Nat} {a : α} (h : l[k]? = some a) (f : α → Nat) (b : α) :
    ((l.set k b).map f).sum + f a = (l.map f).sum + f b := by
  obtain ⟨hk, rfl⟩ := getElem?_eq_some_iff.mp h
  have hset := ((set_perm_cons_eraseIdx hk b).map f).sum_nat
  have hget := ((getElem_cons_eraseIdx_perm hk).map f).sum_nat
  rw [map_cons, sum_cons] at hset hget
  omega

/-- The elements that `countP` counts are as many as their positions. -/
theorem countP_eq_length_of_nodup {l : List α} {p : α → Bool} {positions : List Nat}
    (hnodup : positions.Nodup) (hmem : ∀ i, i ∈ positions ↔ ∃ a, l[i]? = some a ∧ p a = true) :
    l.countP p = positions.length := by
  -- Both lists of positions have no duplicates, so they are compared by membership.
  have hperm : positions.Perm ((l.zipIdx.filter (p ·.1)).map Prod.snd) := by
    refine (perm_ext_iff_of_nodup hnodup ?_).mpr fun i => ?_
    · have hsub := (filter_sublist (p := (p ·.1)) (l := l.zipIdx)).map Prod.snd
      rw [zipIdx_map_snd] at hsub
      exact hsub.nodup nodup_range'
    · simp [hmem, mem_zipIdx_iff_getElem?]
  rw [hperm.length_eq, length_map, ← countP_eq_length_filter]
  conv_lhs => rw [← zipIdx_map_fst 0 l, countP_map]
  rfl

end List
