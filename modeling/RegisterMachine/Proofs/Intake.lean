import Mathlib.Data.List.Induction
import RegisterMachine.Cause

/-!
# Entering items under keys

Registers are declared in a bank and operators are registered in a registry in the same way: one
after another, each under its key, where an item that is not valid or whose key is taken is refused,
in this order of the two reasons.  `Intake` is what both have in common.  Whether all items are
accepted does not depend on their order, and neither does what is then found under the keys; which
item is refused does, and it is the first one that gives a reason.

The inductions are from the right, so that the items already entered are a list of their own and the
store is known by that list (`Holds`).
-/

namespace RegisterMachine

/-- A store that items are entered into, each under its key. -/
structure Intake (σ α : Type) where
  key : α → String
  valid : α → Bool
  /-- The refusal of an item that is not valid. -/
  invalid : String → Cause
  /-- The refusal of an item whose key is taken. -/
  taken : String → Cause
  start : σ
  enter : σ → α → Except Cause σ
  find? : σ → String → Option α
  find?_start : ∀ k, find? start k = none
  enter_invalid : ∀ s x, valid x = false → enter s x = .error (invalid (key x))
  enter_taken : ∀ s x, valid x = true → find? s (key x) ≠ none → enter s x = .error (taken (key x))
  enter_free : ∀ s x, valid x = true → find? s (key x) = none →
    ∃ s', enter s x = .ok s' ∧ ∀ k, find? s' k = if k = key x then some x else find? s k
  /-- A store is determined by what is found in it. -/
  eq_of_find? : ∀ s s', (∀ k, find? s k = find? s' k) → s = s'

namespace Intake

variable {σ α : Type} (I : Intake σ α)

def enterAll (xs : List α) : Except Cause σ :=
  xs.foldlM I.enter I.start

/-- Every item is valid and has a key of its own. -/
structure Proper (xs : List α) : Prop where
  valid : ∀ x ∈ xs, I.valid x = true
  nodup : (xs.map I.key).Nodup

/-- The items are found in the store, each under its key, and nothing else is. -/
structure Holds (s : σ) (xs : List α) : Prop where
  find?_iff : ∀ k x, I.find? s k = some x ↔ x ∈ xs ∧ I.key x = k

inductive Refuses (before : List α) (x : α) : Cause → Prop
  | invalid (h : I.valid x = false) : Refuses before x (I.invalid (I.key x))
  | taken (hv : I.valid x = true) (hk : I.key x ∈ before.map I.key) :
      Refuses before x (I.taken (I.key x))

variable {I} {s : σ} {xs ys before : List α} {x : α} {cause : Cause}

theorem Proper.perm (h : I.Proper xs) (hp : ys.Perm xs) : I.Proper ys :=
  ⟨fun x hx => h.valid x (hp.mem_iff.mp hx), (hp.map I.key).nodup_iff.mpr h.nodup⟩

theorem proper_cons :
    I.Proper (x :: xs) ↔ I.Proper xs ∧ I.valid x = true ∧ I.key x ∉ xs.map I.key := by
  constructor
  · rintro ⟨hvalid, hnodup⟩
    obtain ⟨hv, hxs⟩ := List.forall_mem_cons.mp hvalid
    obtain ⟨hk, hnodup⟩ := List.nodup_cons.mp hnodup
    exact ⟨⟨hxs, hnodup⟩, hv, hk⟩
  · rintro ⟨h, hv, hk⟩
    exact ⟨List.forall_mem_cons.mpr ⟨hv, h.valid⟩, List.nodup_cons.mpr ⟨hk, h.nodup⟩⟩

theorem proper_append_singleton :
    I.Proper (xs ++ [x]) ↔ I.Proper xs ∧ I.valid x = true ∧ I.key x ∉ xs.map I.key := by
  have hperm := List.perm_append_singleton x xs
  rw [← proper_cons]
  exact ⟨fun h => h.perm hperm.symm, fun h => h.perm hperm⟩

theorem holds_start : I.Holds I.start [] := by
  refine ⟨fun k x => ?_⟩
  rw [I.find?_start]
  simp

theorem Holds.find?_eq_none (h : I.Holds s xs) {k : String} :
    I.find? s k = none ↔ k ∉ xs.map I.key := by
  rw [Option.eq_none_iff_forall_ne_some, List.mem_map, not_exists]
  exact forall_congr' fun x => not_congr (h.find?_iff k x)

theorem refuses_iff :
    I.Refuses before x cause ↔
      I.valid x = false ∧ cause = I.invalid (I.key x) ∨
      I.valid x = true ∧ I.key x ∈ before.map I.key ∧ cause = I.taken (I.key x) := by
  constructor
  · rintro (hv | ⟨hv, hk⟩)
    · exact .inl ⟨hv, rfl⟩
    · exact .inr ⟨hv, hk, rfl⟩
  · rintro (⟨hv, rfl⟩ | ⟨hv, hk, rfl⟩)
    · exact .invalid hv
    · exact .taken hv hk

/-! ## One item -/

theorem Holds.enter (h : I.Holds s before) (hv : I.valid x = true)
    (hk : I.key x ∉ before.map I.key) :
    ∃ s', I.enter s x = .ok s' ∧ I.Holds s' (before ++ [x]) := by
  obtain ⟨s', hs', hfind⟩ := I.enter_free s x hv (h.find?_eq_none.mpr hk)
  refine ⟨s', hs', ⟨fun k y => ?_⟩⟩
  rw [hfind, List.mem_append, List.mem_singleton]
  by_cases he : k = I.key x
  · -- No item that was there before has this key.
    have hy : ¬(y ∈ before ∧ I.key y = I.key x) := fun hy =>
      hk (List.mem_map.mpr ⟨y, hy.1, hy.2⟩)
    rw [if_pos he, he, Option.some_inj, or_and_right, or_iff_right hy]
    constructor
    · rintro rfl
      exact ⟨rfl, rfl⟩
    · exact fun hxy => hxy.1.symm
  · have hx : ¬(y = x ∧ I.key y = k) := by
      rintro ⟨rfl, hy⟩
      exact he hy.symm
    rw [if_neg he, h.find?_iff, or_and_right, or_iff_left hx]

theorem Holds.enter_of_refuses (h : I.Holds s before) (hr : I.Refuses before x cause) :
    I.enter s x = .error cause := by
  cases hr with
  | invalid hv => exact I.enter_invalid s x hv
  | taken hv hk =>
    refine I.enter_taken s x hv fun hnone => ?_
    exact h.find?_eq_none.mp hnone hk

/-! ## All items -/

theorem enterAll_append (xs ys : List α) :
    I.enterAll (xs ++ ys) = (I.enterAll xs).bind fun s => ys.foldlM I.enter s :=
  List.foldlM_append

theorem enterAll_append_of_error (h : I.enterAll xs = .error cause) (ys : List α) :
    I.enterAll (xs ++ ys) = .error cause := by
  rw [enterAll_append, h]
  rfl

/-- Proper items are all entered. -/
theorem Proper.enterAll (h : I.Proper xs) : ∃ s, I.enterAll xs = .ok s ∧ I.Holds s xs := by
  induction xs using List.reverseRecOn with
  | nil => exact ⟨I.start, rfl, holds_start⟩
  | append_singleton before x ih =>
    obtain ⟨hbefore, hv, hk⟩ := proper_append_singleton.mp h
    obtain ⟨s, hs, hholds⟩ := ih hbefore
    obtain ⟨s', hs', hholds'⟩ := hholds.enter hv hk
    refine ⟨s', ?_, hholds'⟩
    rw [enterAll_append, hs]
    show (I.enter s x).bind Except.ok = _
    rw [hs']
    rfl

/-- An item that is refused ends the intake, whatever comes after it. -/
theorem enterAll_of_refuses (hb : I.Proper before) (hr : I.Refuses before x cause)
    (after : List α) : I.enterAll (before ++ x :: after) = .error cause := by
  obtain ⟨s, hs, hholds⟩ := hb.enterAll
  rw [enterAll_append, hs]
  show (I.enter s x).bind (fun s => after.foldlM I.enter s) = _
  rw [hholds.enter_of_refuses hr]
  rfl

theorem exists_refuses (before : List α) (x : α)
    (h : ¬(I.valid x = true ∧ I.key x ∉ before.map I.key)) : ∃ cause, I.Refuses before x cause := by
  cases hv : I.valid x with
  | false => exact ⟨_, .invalid hv⟩
  | true => exact ⟨_, .taken hv (Classical.not_not.mp fun hk => h ⟨hv, hk⟩)⟩

/-- Items that are not proper have a first one that is refused. -/
theorem proper_or_refuses (xs : List α) :
    I.Proper xs ∨ ∃ before x after cause, xs = before ++ x :: after ∧ I.Proper before ∧
      I.Refuses before x cause := by
  induction xs using List.reverseRecOn with
  | nil => exact .inl ⟨by simp, List.nodup_nil⟩
  | append_singleton xs x ih =>
    rcases ih with hxs | ⟨before, y, after, cause, rfl, hb, hr⟩
    · by_cases hx : I.valid x = true ∧ I.key x ∉ xs.map I.key
      · exact .inl (proper_append_singleton.mpr ⟨hxs, hx⟩)
      · obtain ⟨cause, hr⟩ := exists_refuses xs x hx
        exact .inr ⟨xs, x, [], cause, rfl, hxs, hr⟩
    · refine .inr ⟨before, y, after ++ [x], cause, ?_, hb, hr⟩
      rw [List.append_assoc, List.cons_append]

theorem proper_of_enterAll (h : I.enterAll xs = .ok s) : I.Proper xs ∧ I.Holds s xs := by
  rcases I.proper_or_refuses xs with hp | ⟨before, x, after, cause, rfl, hb, hr⟩
  · obtain ⟨s', hs', hholds⟩ := hp.enterAll
    rw [h] at hs'
    cases hs'
    exact ⟨hp, hholds⟩
  · rw [enterAll_of_refuses hb hr] at h
    cases h

theorem enterAll_eq_ok_iff : (∃ s, I.enterAll xs = .ok s) ↔ I.Proper xs := by
  constructor
  · rintro ⟨s, hs⟩
    exact (proper_of_enterAll hs).1
  · intro h
    obtain ⟨s, hs, -⟩ := h.enterAll
    exact ⟨s, hs⟩

theorem enterAll_eq_error_iff :
    I.enterAll xs = .error cause ↔ ∃ before x after, xs = before ++ x :: after ∧
      I.Proper before ∧ I.Refuses before x cause := by
  constructor
  · intro h
    rcases I.proper_or_refuses xs with hp | ⟨before, x, after, cause', rfl, hb, hr⟩
    · obtain ⟨s, hs, -⟩ := hp.enterAll
      rw [hs] at h
      cases h
    · rw [enterAll_of_refuses hb hr] at h
      cases h
      exact ⟨before, x, after, rfl, hb, hr⟩
  · rintro ⟨before, x, after, rfl, hb, hr⟩
    exact enterAll_of_refuses hb hr after

/-- Behind items that are entered, only one of the others is refused. -/
theorem exists_refuses_of_append (hx : I.enterAll xs = .ok s)
    (h : I.enterAll (xs ++ ys) = .error cause) :
    ∃ before y after, ys = before ++ y :: after ∧ I.Refuses (xs ++ before) y cause := by
  obtain ⟨before, y, after, he, hb, hr⟩ := enterAll_eq_error_iff.mp h
  rcases List.append_eq_append_iff.mp he with ⟨more, rfl, hys⟩ | ⟨more, rfl, hys⟩
  · exact ⟨more, y, after, hys, hr⟩
  · cases more with
    | nil =>
      rw [List.append_nil]
      exact ⟨[], y, after, hys.symm, by rwa [List.append_nil]⟩
    | cons z more =>
      obtain ⟨rfl, -⟩ := List.cons.inj hys
      rw [enterAll_of_refuses hb hr] at hx
      cases hx

/-- A store is made by entering proper items that it holds, in any order. -/
theorem Holds.enterAll (h : I.Holds s xs) (hxs : I.Proper xs) (hp : ys.Perm xs) :
    I.enterAll ys = .ok s := by
  obtain ⟨s', hs', h'⟩ := (hxs.perm hp).enterAll
  have heq : s' = s := by
    refine I.eq_of_find? s' s fun k => Option.ext fun x => ?_
    rw [h'.find?_iff, h.find?_iff, hp.mem_iff]
  rw [hs', heq]

/-- The order of the items has no part in the store. -/
theorem enterAll_perm (h : I.enterAll xs = .ok s) (hp : ys.Perm xs) : I.enterAll ys = .ok s := by
  obtain ⟨hproper, hholds⟩ := proper_of_enterAll h
  exact hholds.enterAll hproper hp

end Intake
end RegisterMachine
