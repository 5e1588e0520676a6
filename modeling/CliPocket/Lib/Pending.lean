import CliPocket.Lib.Saturating
import Mathlib.Data.List.AList

/-!
# Requests that wait for their responses

A table from request identifiers to what is known of each request, beside the list of the requests that are
outstanding; identifiers come from a counter that stays at its largest value.

- `Agree`: the table is that of the outstanding requests, and no identifier is used twice;
- `Agree.ask`, `Agree.answer`: a request with a fresh identifier, and the response to one;
- `Counted.fresh`: below its largest value the counter is fresh.
-/

namespace PendingTable

variable {α ρ : Type*} {key : ρ → Nat} {val : ρ → α}

/-- The table knows the outstanding requests, each under its own identifier. -/
structure Agree (key : ρ → Nat) (val : ρ → α) (table : AList fun _ : Nat => α) (out : List ρ) : Prop where
  nodup : (out.map key).Nodup
  lookup : ∀ id a, table.lookup id = some a ↔ ∃ r ∈ out, key r = id ∧ val r = a

theorem agree_nil : Agree key val ∅ [] where
  nodup := List.nodup_nil
  lookup := fun id a => by simp

variable {table : AList fun _ : Nat => α} {out : List ρ}

theorem Agree.lookup_of_mem (h : Agree key val table out) {r : ρ} (hr : r ∈ out) : table.lookup (key r) = some (val r) :=
  (h.lookup _ _).mpr ⟨r, hr, rfl, rfl⟩

/-- An identifier that the table does not have is not outstanding. -/
theorem Agree.not_mem_of_lookup (h : Agree key val table out) {id : Nat} (hid : table.lookup id = none) :
    id ∉ out.map key := by
  intro hmem
  obtain ⟨r, hr, rfl⟩ := List.mem_map.mp hmem
  rw [h.lookup_of_mem hr] at hid
  cases hid

/-- **A request is sent** under an identifier that is not in the table. -/
theorem Agree.ask (h : Agree key val table out) {r : ρ} (hfresh : table.lookup (key r) = none) :
    Agree key val (table.insert (key r) (val r)) (out ++ [r]) where
  nodup := by
    rw [List.map_append, List.map_singleton, List.nodup_append]
    refine ⟨h.nodup, List.nodup_singleton _, ?_⟩
    rintro id hid _ hlast rfl
    exact h.not_mem_of_lookup hfresh (List.mem_singleton.mp hlast ▸ hid)
  lookup := fun id a => by
    by_cases hid : id = key r
    · subst hid
      rw [AList.lookup_insert, Option.some.injEq]
      constructor
      · rintro rfl
        exact ⟨r, List.mem_append_right _ List.mem_cons_self, rfl, rfl⟩
      · rintro ⟨r', hr', hkey, rfl⟩
        rcases List.mem_append.mp hr' with hold | hnew
        · exact absurd (hkey ▸ List.mem_map_of_mem hold) (h.not_mem_of_lookup hfresh)
        · rw [List.mem_singleton.mp hnew]
    · rw [AList.lookup_insert_ne hid, h.lookup]
      constructor
      · rintro ⟨r', hr', hkey, hval⟩
        exact ⟨r', List.mem_append_left _ hr', hkey, hval⟩
      · rintro ⟨r', hr', hkey, hval⟩
        rcases List.mem_append.mp hr' with hold | hnew
        · exact ⟨r', hold, hkey, hval⟩
        · rw [List.mem_singleton.mp hnew] at hkey
          exact absurd hkey.symm hid

/-- **The response to a request** takes it off the table. -/
theorem Agree.answer {r : ρ} (h : Agree key val table (r :: out)) : Agree key val (table.erase (key r)) out where
  nodup := (List.nodup_cons.mp h.nodup).2
  lookup := fun id a => by
    by_cases hid : id = key r
    · subst hid
      rw [AList.lookup_erase]
      constructor
      · nofun
      · rintro ⟨r', hr', hkey, _⟩
        exact absurd (hkey ▸ List.mem_map_of_mem hr') (List.nodup_cons.mp h.nodup).1
    · rw [AList.lookup_erase_ne hid, h.lookup]
      constructor
      · rintro ⟨r', hr', hkey, hval⟩
        rcases List.mem_cons.mp hr' with rfl | hr'
        · exact absurd hkey.symm hid
        · exact ⟨r', hr', hkey, hval⟩
      · rintro ⟨r', hr', hkey, hval⟩
        exact ⟨r', List.mem_cons_of_mem _ hr', hkey, hval⟩

/-! ## The counter -/

/-- Identifiers given out are behind the counter, until it stays where it is. -/
structure Counted (max next : Nat) (ids : List Nat) : Prop where
  next_le : next ≤ max
  below : ∀ id ∈ ids, id < next ∨ id = max ∧ next = max

theorem Counted.fresh {max next : Nat} {ids : List Nat} (h : Counted max next ids) (hlt : next < max) : next ∉ ids := by
  intro hmem
  rcases h.below next hmem with hlow | ⟨_, heq⟩
  · omega
  · omega

theorem Counted.ask {max next : Nat} {ids : List Nat} (h : Counted max next ids) :
    Counted max (Saturating.add max next 1) (ids ++ [next]) where
  next_le := Saturating.add_le _ _ _
  below := fun id hid => by
    have hle := h.next_le
    unfold Saturating.add
    rcases List.mem_append.mp hid with hold | hnew
    · rcases h.below id hold with hlow | ⟨_, _⟩
      · omega
      · omega
    · rw [List.mem_singleton] at hnew
      omega

theorem Counted.sublist {max next : Nat} {ids ids' : List Nat} (h : Counted max next ids) (hsub : ids' ⊆ ids) :
    Counted max next ids' := ⟨h.next_le, fun id hid => h.below id (hsub hid)⟩

end PendingTable
