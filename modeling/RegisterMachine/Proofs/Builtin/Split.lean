import RegisterMachine.Proofs.Builtin.Fold

/-!
# A fold in two parts

Folding a list of operands into a destination is folding its first part and then the rest, with the
destination holding the result in between.  The second instruction finds its operands in a bank that
the first one has written to; it denotes the same words there as long as none of its operands is the
destination.  Nothing is asked of the step, so the law holds of every fold, and of the floating-point
ones whatever their arithmetic may be.
-/

namespace RegisterMachine

namespace Computation

def folding (k : Kind) (step : k.Word → k.Word → Option k.Word) : Computation :=
  ⟨k, k, fun seed words => words.foldlM step seed⟩

variable {k : Kind} {step : k.Word → k.Word → Option k.Word} {target : String}
  {xs ys : List String} {context after : Context}

theorem folding_run_eq_ok_iff {tokens : List String} :
    (folding k step).run target tokens context = .ok () after ↔
      ∃ (seed : k.Word) (words : List k.Word) (result : k.Word),
        context.registers.read? k target = some seed ∧
        context.registers.resolveAll k tokens = .ok words ∧
        words.foldlM step seed = some result ∧
        after = { context with
          registers := context.registers.write target (.ofWord k result) } :=
  run_eq_ok_iff

theorem foldlM_append_eq_some_iff {us vs : List k.Word} {seed result : k.Word} :
    (us ++ vs).foldlM step seed = some result ↔
      ∃ middle, us.foldlM step seed = some middle ∧ vs.foldlM step middle = some result := by
  rw [List.foldlM_append]
  exact Option.bind_eq_some_iff

theorem folding_run_append (ht : target ∉ ys) :
    (folding k step).run target (xs ++ ys) context = .ok () after ↔
      ∃ between, (folding k step).run target xs context = .ok () between ∧
        (folding k step).run target ys between = .ok () after := by
  have hkind (u v : k.Word) : (Value.ofWord k u).kind = (Value.ofWord k v).kind := by
    simp
  -- The second part is read alike before and after the destination is written.
  have hresolve (b : Bank) (w : k.Word) :
      (b.write target (.ofWord k w)).resolveAll k ys = b.resolveAll k ys :=
    ((Bank.agree_write ht b _).resolveAll (List.Subset.refl ys) k).symm
  simp only [folding_run_eq_ok_iff]
  constructor
  · rintro ⟨seed, words, result, hseed, hwords, hresult, rfl⟩
    obtain ⟨us, vs, hus, hvs, rfl⟩ := Bank.resolveAll_append_eq_ok_iff.mp hwords
    obtain ⟨middle, hmiddle, hrest⟩ := foldlM_append_eq_some_iff.mp hresult
    refine ⟨_, ⟨seed, us, middle, hseed, hus, hmiddle, rfl⟩, middle, vs, result,
      Bank.read?_write_self (Bank.contains_of_read? hseed) middle, ?_, hrest, ?_⟩
    · exact (hresolve context.registers middle).trans hvs
    · rw [Bank.write_write (hkind middle result)]
  · rintro ⟨-, ⟨seed, us, middle, hseed, hus, hmiddle, rfl⟩, seed', vs, result, hseed', hvs,
      hrest, rfl⟩
    have hwritten := Bank.read?_write_self (Bank.contains_of_read? hseed) middle
    obtain rfl : middle = seed' := Option.some.inj (hwritten.symm.trans hseed')
    have hvs' := (hresolve context.registers middle).symm.trans hvs
    refine ⟨seed, us ++ vs, result, hseed,
      Bank.resolveAll_append_eq_ok_iff.mpr ⟨us, vs, hus, hvs', rfl⟩,
      foldlM_append_eq_some_iff.mpr ⟨middle, hmiddle, hrest⟩, ?_⟩
    rw [Bank.write_write (hkind middle result)]

end Computation

/-- A folding instruction succeeds exactly when the same instruction on the first part of its
operands and then on the rest both succeed, and it leaves what they leave, provided that its
destination is not among the rest.  The same is true of a fold by any step whatever. -/
theorem Builtin.run_fold_append (target : String) {xs ys : List String} (hx : xs ≠ [])
    (hy : ys ≠ []) (hn : 1 + xs.length + ys.length ≤ 16) (ht : target ∉ ys) (context : Context) :
    (∀ (op : Fold) (after : Context),
      (fold op).run (target :: (xs ++ ys)) context = .ok () after ↔
        ∃ between, (fold op).run (target :: xs) context = .ok () between ∧
          (fold op).run (target :: ys) between = .ok () after) ∧
    ∀ (k : Kind) (step : k.Word → k.Word → Option k.Word) (after : Context),
      (Computation.folding k step).run target (xs ++ ys) context = .ok () after ↔
        ∃ between, (Computation.folding k step).run target xs context = .ok () between ∧
          (Computation.folding k step).run target ys between = .ok () after := by
  have hxs : 0 < xs.length := List.length_pos_of_ne_nil hx
  have hys : 0 < ys.length := List.length_pos_of_ne_nil hy
  refine ⟨fun op after => ?_, fun k step after => Computation.folding_run_append ht⟩
  have hall : 1 ≤ (xs ++ ys).length ∧ (xs ++ ys).length ≤ 15 := by
    rw [List.length_append]
    omega
  have hfirst : 1 ≤ xs.length ∧ xs.length ≤ 15 := by omega
  have hrest : 1 ≤ ys.length ∧ ys.length ≤ 15 := by omega
  simp only [run_eq_computation hall, run_eq_computation hfirst, run_eq_computation hrest]
  exact Computation.folding_run_append ht

/-- The first part doubles the destination by naming it, and the rest is read after that. -/
theorem Builtin.run_fold_append_doubled :
    let context : Context := { registers := Bank.ofPoints [("a", .int 7), ("c", .int 3)] }
    let after : Context := { registers := context.registers.write "a" (.int 20) }
    "a" ∉ ["c", "3"] ∧ (fold (.int .add)).run ["a", "a", "c", "3"] context = .ok () after ∧
      ∃ between, (fold (.int .add)).run ["a", "a"] context = .ok () between ∧
        (fold (.int .add)).run ["a", "c", "3"] between = .ok () after := by
  intro context after
  have ht : "a" ∉ ["c", "3"] := by decide
  have hall : (fold (.int .add)).run ["a", "a", "c", "3"] context = .ok () after := rfl
  have hsplit := run_fold_append "a" (List.cons_ne_nil "a" []) (List.cons_ne_nil "c" ["3"])
    (by decide) ht context
  exact ⟨ht, hall, (hsplit.1 (.int .add) after).mp hall⟩

end RegisterMachine
