import Mathlib.Data.Finmap

/-!
# Entries of finite maps

`Finmap` has the entries of `insert` for a fresh key only. Here a map is given by one
binding and the multiset of its other bindings, and the entries of `erase` and `insert`
at that key are read off.
-/

namespace Serveez.Lib

variable {α : Type*} {β : α → Type*} [DecidableEq α]

/-- A map with the binding of `a` split off. -/
theorem exists_insert_of_entries_eq_cons {m : Finmap β} {a : α} {b : β a}
    {E : Multiset (Sigma β)} (h : m.entries = ⟨a, b⟩ ::ₘ E) :
    ∃ m' : Finmap β, a ∉ m' ∧ m'.entries = E ∧ m = m'.insert a b := by
  have hnodup : (Multiset.keys (⟨a, b⟩ ::ₘ E)).Nodup := h ▸ m.nodupKeys.nodup_keys
  rw [Multiset.keys_cons, Multiset.nodup_cons] at hnodup
  obtain ⟨hfresh, hE⟩ := hnodup
  have ha : a ∉ (⟨E, Multiset.nodup_keys.mp hE⟩ : Finmap β) :=
    fun hmem => hfresh (Finmap.mem_def.mp hmem)
  refine ⟨⟨E, Multiset.nodup_keys.mp hE⟩, ha, rfl, Finmap.ext ?_⟩
  rw [h, Finmap.entries_insert_of_notMem ha]

theorem entries_erase_of_entries_eq_cons {m : Finmap β} {a : α} {b : β a}
    {E : Multiset (Sigma β)} (h : m.entries = ⟨a, b⟩ ::ₘ E) : (m.erase a).entries = E := by
  obtain ⟨m', ha, rfl, rfl⟩ := exists_insert_of_entries_eq_cons h
  refine congrArg Finmap.entries (Finmap.ext_lookup ?_)
  intro q
  by_cases hq : q = a
  · subst hq
    rw [Finmap.lookup_erase, Finmap.lookup_eq_none.mpr ha]
  · rw [Finmap.lookup_erase_ne hq, Finmap.lookup_insert_of_ne _ hq]

theorem entries_insert_of_entries_eq_cons {m : Finmap β} {a : α} {b b' : β a}
    {E : Multiset (Sigma β)} (h : m.entries = ⟨a, b⟩ ::ₘ E) :
    (m.insert a b').entries = ⟨a, b'⟩ ::ₘ E := by
  obtain ⟨m', ha, rfl, rfl⟩ := exists_insert_of_entries_eq_cons h
  rw [Finmap.insert_insert, Finmap.entries_insert_of_notMem ha]

theorem erase_of_notMem {m : Finmap β} {a : α} (h : a ∉ m) : m.erase a = m := by
  refine Finmap.ext_lookup ?_
  intro q
  by_cases hq : q = a
  · subst hq
    rw [Finmap.lookup_erase, Finmap.lookup_eq_none.mpr h]
  · rw [Finmap.lookup_erase_ne hq]

omit [DecidableEq α] in
theorem card_keys (m : Finmap β) : m.keys.card = Multiset.card m.entries := by
  change Multiset.card m.entries.keys = Multiset.card m.entries
  exact Multiset.card_map _ _

end Serveez.Lib
