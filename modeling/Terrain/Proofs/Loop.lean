import Mathlib.Data.List.Basic

/-!
# Loops that go through

A loop over a list goes through if each of its rounds does, and what every round keeps holds at its
end.
-/

namespace Terrain

variable {σ α β ε : Type} {l : List α} {s : σ}

lemma ok_bind (a : α) (f : α → Except ε β) : (Except.ok a >>= f) = f a := rfl

lemma error_bind (e : ε) (f : α → Except ε β) : (Except.error e >>= f) = .error e := rfl

lemma exists_foldlM {f : σ → α → Except ε σ} {P : σ → Prop} (h : P s)
    (hstep : ∀ a ∈ l, ∀ s, P s → ∃ s', f s a = .ok s' ∧ P s') :
    ∃ s', l.foldlM f s = .ok s' ∧ P s' := by
  induction l generalizing s with
  | nil => exact ⟨s, rfl, h⟩
  | cons a l ih =>
    obtain ⟨s', hs', h'⟩ := hstep a List.mem_cons_self s h
    obtain ⟨s'', hs'', h''⟩ := ih h' fun a ha => hstep a (List.mem_cons_of_mem _ ha)
    refine ⟨s'', ?_, h''⟩
    rw [List.foldlM_cons, hs']
    exact hs''

/-- A loop none of whose rounds changes the state does not change it. -/
lemma foldlM_eq_self {f : σ → α → Except ε σ} (h : ∀ a ∈ l, f s a = .ok s) :
    l.foldlM f s = .ok s := by
  induction l with
  | nil => rfl
  | cons a l ih =>
    rw [List.foldlM_cons, h a List.mem_cons_self]
    exact ih fun b hb => h b (List.mem_cons_of_mem _ hb)

/-- What every round takes from the values before it to those up to its own holds of all values at
the end. -/
lemma exists_foldlM_prefix {f : σ → α → Except ε σ} {P : List α → σ → Prop} (h0 : P [] s)
    (hstep : ∀ before a after s, before ++ a :: after = l → P before s →
      ∃ s', f s a = .ok s' ∧ P (before ++ [a]) s') :
    ∃ s', l.foldlM f s = .ok s' ∧ P l s' := by
  induction l generalizing P s with
  | nil => exact ⟨s, rfl, h0⟩
  | cons a l ih =>
    obtain ⟨s', hs', h1⟩ := hstep [] a l s rfl h0
    -- in the rest of the loop `a` comes before everything
    obtain ⟨s'', hs'', h2⟩ := ih (P := fun before => P (a :: before)) h1
      fun before b after s hl => hstep (a :: before) b after s (congrArg (a :: ·) hl)
    refine ⟨s'', ?_, h2⟩
    rw [List.foldlM_cons, hs']
    exact hs''

/-- What every round of a loop over numbers takes from one number to the next holds at its end. -/
lemma exists_foldlM_range {n : Nat} {f : σ → Nat → Except ε σ} {P : Nat → σ → Prop} (h0 : P 0 s)
    (hstep : ∀ i < n, ∀ s, P i s → ∃ s', f s i = .ok s' ∧ P (i + 1) s') :
    ∃ s', (List.range n).foldlM f s = .ok s' ∧ P n s' := by
  induction n with
  | zero => exact ⟨s, rfl, h0⟩
  | succ n ih =>
    obtain ⟨s', hs', h1⟩ := ih fun i hi => hstep i (Nat.lt_succ_of_lt hi)
    obtain ⟨s'', hs'', h2⟩ := hstep n (Nat.lt_succ_self n) s' h1
    refine ⟨s'', ?_, h2⟩
    rw [List.range_succ, List.foldlM_append, hs']
    exact (congrArg (· >>= pure) hs'').trans rfl

/-- What every step of a loop over numbered values takes from one number to the next holds at its
end. -/
lemma exists_foldlM_zipIdx {f : σ → α × Nat → Except ε σ} {P : Nat → σ → Prop} (h0 : P 0 s)
    (hstep : ∀ i (hi : i < l.length) s, P i s → ∃ s', f s (l[i], i) = .ok s' ∧ P (i + 1) s') :
    ∃ s', l.zipIdx.foldlM f s = .ok s' ∧ P l.length s' := by
  induction l generalizing f P s with
  | nil => exact ⟨s, rfl, h0⟩
  | cons a l ih =>
    obtain ⟨s', hs', h1⟩ := hstep 0 (Nat.zero_lt_succ _) s h0
    -- in the rest of the loop every number is one more
    obtain ⟨s'', hs'', h2⟩ := ih (f := fun s b => f s (b.1, b.2 + 1)) (P := fun i => P (i + 1))
      h1 fun i hi => hstep (i + 1) (Nat.succ_lt_succ hi)
    refine ⟨s'', ?_, h2⟩
    rw [List.zipIdx_cons, List.foldlM_cons, List.zipIdx_succ]
    refine (congrArg (· >>= _) hs').trans ?_
    change List.foldlM f s' (l.zipIdx.map _) = _
    rw [List.foldlM_map]
    exact hs''

end Terrain
