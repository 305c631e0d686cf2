import ActionAtlas.Graph.Build
import Mathlib.Data.List.Nodup

/-!
# First occurrences

What `firstsBy` keeps: a sublist of its input with pairwise distinct keys in which every key of the
input still occurs. A search by a test that only looks at keys finds the same element before and
after. Of two lists put together, the second adds its new keys and nothing else. One pass that
remembers the keys it has used keeps the same elements.
-/

namespace ActionAtlas

variable {α κ : Type} [BEq κ]

theorem firstsBy_sublist (key : α → κ) (xs : List α) : (firstsBy key xs).Sublist xs := by
  induction xs with
  | nil => exact List.Sublist.refl []
  | cons x rest ih => exact (List.filter_sublist.trans ih).cons_cons x

theorem mem_of_mem_firstsBy {key : α → κ} {xs : List α} {x : α} (h : x ∈ firstsBy key xs) :
    x ∈ xs :=
  (firstsBy_sublist key xs).subset h

/-- A change that leaves keys alone may come before or after. -/
theorem firstsBy_map {key : α → κ} {change : α → α} (hkey : ∀ x, key (change x) = key x)
    (xs : List α) : firstsBy key (xs.map change) = (firstsBy key xs).map change := by
  induction xs with
  | nil => rfl
  | cons x rest ih =>
      rw [List.map_cons, firstsBy, firstsBy, ih, List.map_cons, List.filter_map]
      simp only [Function.comp_def, hkey]

variable [LawfulBEq κ]

theorem firstsBy_keys_nodup (key : α → κ) (xs : List α) : ((firstsBy key xs).map key).Nodup := by
  induction xs with
  | nil => simp [firstsBy]
  | cons x rest ih =>
      rw [firstsBy, List.map_cons, List.nodup_cons]
      constructor
      · intro h
        obtain ⟨y, hy, hkey⟩ := List.mem_map.mp h
        have hne := (List.mem_filter.mp hy).2
        simp [hkey] at hne
      · exact ih.sublist (List.filter_sublist.map key)

/-- No key is lost. -/
theorem exists_mem_firstsBy (key : α → κ) {xs : List α} {x : α} (h : x ∈ xs) :
    ∃ y ∈ firstsBy key xs, key y = key x := by
  induction xs with
  | nil => simp at h
  | cons first rest ih =>
      by_cases hkey : key x = key first
      · exact ⟨first, by simp [firstsBy], hkey.symm⟩
      · have hrest : x ∈ rest := by
          rcases List.mem_cons.mp h with rfl | hrest
          · exact absurd rfl hkey
          · exact hrest
        obtain ⟨y, hy, hyx⟩ := ih hrest
        refine ⟨y, ?_, hyx⟩
        rw [firstsBy]
        exact List.mem_cons_of_mem _ (List.mem_filter.mpr ⟨hy, by simp [hyx, hkey]⟩)

theorem mem_firstsBy_keys (key : α → κ) (xs : List α) (k : κ) :
    (∃ x ∈ firstsBy key xs, key x = k) ↔ ∃ x ∈ xs, key x = k := by
  constructor
  · rintro ⟨x, hx, hk⟩
    exact ⟨x, mem_of_mem_firstsBy hx, hk⟩
  · rintro ⟨x, hx, rfl⟩
    exact exists_mem_firstsBy key hx

theorem mem_map_firstsBy {key : α → κ} {xs : List α} {k : κ} :
    k ∈ (firstsBy key xs).map key ↔ k ∈ xs.map key := by
  simpa only [List.mem_map] using mem_firstsBy_keys key xs k

/-- When elements are their own keys, exactly the elements of the input are kept. -/
theorem mem_firstsBy_self {xs : List κ} {x : κ} : x ∈ firstsBy (fun y => y) xs ↔ x ∈ xs := by
  simpa using mem_firstsBy_keys (fun y : κ => y) xs x

theorem firstsBy_self_nodup (xs : List κ) : (firstsBy (fun y => y) xs).Nodup := by
  simpa using firstsBy_keys_nodup (fun y : κ => y) xs

theorem find?_firstsBy {key : α → κ} {test : α → Bool}
    (hkey : ∀ x y, key x = key y → test x = test y) (xs : List α) :
    (firstsBy key xs).find? test = xs.find? test := by
  induction xs with
  | nil => rfl
  | cons x rest ih =>
      by_cases hx : test x = true
      · simp [firstsBy, hx]
      · -- what the head removes fails the test just as the head does
        have hsame : ∀ y, (!(key y == key x)) = true ∧ test y = true ↔ test y = true := by
          intro y
          by_cases hy : key y = key x
          · simp [hkey y x hy, hx]
          · simp [hy]
        rw [firstsBy, List.find?_cons_of_neg hx, List.find?_cons_of_neg hx, List.find?_filter]
        simp only [hsame, Bool.decide_eq_true]
        exact ih

/-! ## Lists put together -/

/-- Of two lists put together, the second adds what has a key that the first does not have. -/
theorem firstsBy_append (key : α → κ) (xs ys : List α) :
    firstsBy key (xs ++ ys) =
      firstsBy key xs ++
        (firstsBy key ys).filter fun y => key y ∉ (firstsBy key xs).map key := by
  induction xs with
  | nil => simp [firstsBy]
  | cons x rest ih =>
      have hkeys : ∀ y, decide (key y ∉ (firstsBy key (x :: rest)).map key) =
          (!(key y == key x) && decide (key y ∉ (firstsBy key rest).map key)) := by
        intro y
        rw [Bool.eq_iff_iff]
        simp only [mem_map_firstsBy, List.map_cons, List.mem_cons, not_or, decide_eq_true_eq,
          Bool.and_eq_true, Bool.not_eq_true', beq_eq_false_iff_ne, ne_eq]
      rw [List.filter_congr fun y _ => hkeys y, List.cons_append, firstsBy, firstsBy, ih,
        List.filter_append, List.filter_filter, List.cons_append]

/-- What comes under known keys adds nothing. -/
theorem firstsBy_append_known {key : α → κ} {xs ys : List α}
    (h : ∀ y ∈ ys, ∃ x ∈ xs, key x = key y) : firstsBy key (xs ++ ys) = firstsBy key xs := by
  rw [firstsBy_append, List.filter_eq_nil_iff.mpr, List.append_nil]
  intro y hy hnew
  have hknown : key y ∈ xs.map key := List.mem_map.mpr (h y (mem_of_mem_firstsBy hy))
  rw [decide_eq_true_eq, mem_map_firstsBy] at hnew
  exact hnew hknown

theorem firstsBy_drop_known (key : α → κ) {xs : List α} {y : α} (h : ∃ x ∈ xs, key x = key y)
    (zs : List α) : firstsBy key (xs ++ y :: zs) = firstsBy key (xs ++ zs) := by
  have hknown : firstsBy key (xs ++ [y]) = firstsBy key xs :=
    firstsBy_append_known (by simpa using h)
  rw [← List.singleton_append, ← List.append_assoc, firstsBy_append, hknown, firstsBy_append]

/-! ## One pass with a set of used keys -/

section

variable [Hashable κ]

/-- What a pass has kept so far, and the keys it has used. -/
structure Pass (α κ : Type) [BEq κ] [Hashable κ] where
  kept : List α := []
  used : Std.HashSet κ := ∅

namespace Pass

def step (key : α → κ) (pass : Pass α κ) (x : α) : Pass α κ :=
  if pass.used.contains (key x) then pass
  else { kept := pass.kept ++ [x], used := pass.used.insert (key x) }

theorem kept_foldl_step (key : α → κ) (xs : List α) (pass : Pass α κ) :
    (xs.foldl (step key) pass).kept =
      pass.kept ++ (firstsBy key xs).filter fun x => !pass.used.contains (key x) := by
  induction xs generalizing pass with
  | nil => simp [firstsBy]
  | cons x rest ih =>
      rw [List.foldl_cons, ih, firstsBy, step]
      cases hused : pass.used.contains (key x) with
      | true =>
          -- what the head removes is used up as well
          have hsame : ∀ y, (!pass.used.contains (key y) && !(key y == key x)) =
              !pass.used.contains (key y) := by
            intro y
            by_cases hkey : key y = key x
            · simp [hkey, hused]
            · simp [hkey]
          simp [hused, List.filter_filter, hsame]
      | false =>
          have hinsert : ∀ y, (!(pass.used.insert (key x)).contains (key y)) =
              (!pass.used.contains (key y) && !(key y == key x)) := by
            intro y
            rw [Std.HashSet.contains_insert, BEq.comm, Bool.not_or, Bool.and_comm]
          simp only [Bool.false_eq_true, if_false, hinsert]
          simp [hused, List.filter_filter]

theorem kept_eq_firstsBy (key : α → κ) (xs : List α) :
    (xs.foldl (step key) {}).kept = firstsBy key xs := by
  rw [kept_foldl_step]
  simp

end Pass

end

end ActionAtlas
