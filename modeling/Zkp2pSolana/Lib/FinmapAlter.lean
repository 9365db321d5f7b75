/-
Finite maps altered at a key.

`alter k f m` replaces what `m` holds at `k` by its image under `f`, where `none`
stands for an absent key: insertion, removal and the update of a value in place
are all of this form. Alterations at different keys commute, and at one key they
commute when their functions do. A list of alterations at distinct keys does to
each key what its own entry says.
-/
import Zkp2pSolana.Lib.FinmapTotal

set_option autoImplicit false

namespace Finmap

variable {K V : Type*} [DecidableEq K]

/-- The map with `f` applied to what it holds at `k`. -/
def alter (k : K) (f : Option V → Option V) (m : Finmap (fun _ : K => V)) :
    Finmap (fun _ : K => V) :=
  match f (m.lookup k) with
  | none => m.erase k
  | some v => m.insert k v

/-- After an alteration at `k`, the entry at `k` is the altered one and every other entry is the old
one. -/
theorem lookup_alter (m : Finmap (fun _ : K => V)) (k k' : K) (f : Option V → Option V) :
    (m.alter k f).lookup k' = if k' = k then f (m.lookup k) else m.lookup k' := by
  unfold alter
  cases hf : f (m.lookup k) with
  | none => rw [lookup_erase_ite]
  | some v => rw [lookup_insert_ite]

theorem lookup_alter_ne (m : Finmap (fun _ : K => V)) {k k' : K} (f : Option V → Option V)
    (h : k' ≠ k) : (m.alter k f).lookup k' = m.lookup k' := by
  rw [lookup_alter, if_neg h]

/-- Writing a value where the map holds one. -/
theorem insert_eq_alter {m : Finmap (fun _ : K => V)} {k : K} {v : V} (h : m.lookup k = some v)
    (f : V → V) : m.insert k (f v) = m.alter k (Option.map f) := by
  unfold alter
  rw [h, Option.map_some]

/-- Alterations commute if at a common key their functions do. -/
theorem alter_comm (m : Finmap (fun _ : K => V)) {k k' : K} {f g : Option V → Option V}
    (h : k = k' → ∀ o, f (g o) = g (f o)) :
    (m.alter k' g).alter k f = (m.alter k f).alter k' g := by
  refine ext_lookup fun x => ?_
  simp only [lookup_alter]
  by_cases hk : k = k'
  · subst hk
    simp only [if_true]
    rw [h rfl]
    split_ifs <;> rfl
  · have hk' : k' ≠ k := fun heq => hk heq.symm
    rw [if_neg hk, if_neg hk']
    by_cases hx : x = k
    · subst hx
      rw [if_pos rfl, if_neg hk, if_pos rfl]
    · rw [if_neg hx, if_neg hx]

/-- A value updated in place stays one. -/
theorem lookup_alter_map {m : Finmap (fun _ : K => V)} {k k' : K} {v : V}
    (h : m.lookup k' = some v) (f : V → V) :
    (m.alter k (Option.map f)).lookup k' = some (if k' = k then f v else v) := by
  rw [lookup_alter]
  split_ifs with hk
  · rw [← hk, h, Option.map_some]
  · exact h

/-! ## Several alterations -/

/-- The alterations of a list, one after the other. -/
def alter_all (m : Finmap (fun _ : K => V)) (l : List (K × (Option V → Option V))) :
    Finmap (fun _ : K => V) :=
  l.foldl (fun m e => m.alter e.1 e.2) m

/-- A list of alterations leaves a key alone that none of them names. -/
theorem lookup_alter_all_of_not_mem {m : Finmap (fun _ : K => V)}
    {l : List (K × (Option V → Option V))} {k : K} (h : k ∉ l.map Prod.fst) :
    (m.alter_all l).lookup k = m.lookup k := by
  induction l generalizing m with
  | nil => rfl
  | cons e l ih =>
    rw [List.map_cons, List.mem_cons, not_or] at h
    exact (ih h.2).trans (lookup_alter_ne m e.2 h.1)

/-- Where the keys are distinct, each is altered once. -/
theorem lookup_alter_all_of_mem {m : Finmap (fun _ : K => V)}
    {l : List (K × (Option V → Option V))} {k : K} {f : Option V → Option V}
    (hdistinct : (l.map Prod.fst).Nodup) (h : (k, f) ∈ l) :
    (m.alter_all l).lookup k = f (m.lookup k) := by
  induction l generalizing m with
  | nil => cases h
  | cons e l ih =>
    rw [List.map_cons, List.nodup_cons] at hdistinct
    obtain ⟨hnew, hdistinct⟩ := hdistinct
    show ((m.alter e.1 e.2).alter_all l).lookup k = f (m.lookup k)
    rcases List.mem_cons.mp h with hfirst | hlater
    · rw [← hfirst] at hnew ⊢
      rw [lookup_alter_all_of_not_mem hnew, lookup_alter, if_pos rfl]
    · have hk : k ≠ e.1 := by
        intro heq
        apply hnew
        rw [← heq]
        exact List.mem_map_of_mem hlater
      rw [ih hdistinct hlater, lookup_alter_ne m e.2 hk]

end Finmap
