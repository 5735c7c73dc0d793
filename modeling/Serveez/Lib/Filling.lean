import Serveez.Lib.Block

/-!
# Arrays that are filled from their beginning

A loop puts one thing after the other into the entries of an array, which were all the same before.
There is no entry behind the last one, but a thing that puts nothing into its entry needs none.

* `storeAll_laid`: what the array is afterwards.
* `copy_iff`: the same for a text.
* `terminated_text`: when the text ends inside of the array.
* `storeAll_over_iff`, `copy_terminated_iff`: over what was there before.
-/

namespace Serveez.Lib

/-- There is room for a text and, unless it has one in it, a terminator. -/
def Fits {α : Type*} (nul : α) (n : Nat) (text : List α) : Prop :=
  text.length < n ∨ text.length = n ∧ nul ∈ text

namespace Block

variable {α β δ : Type*} {n : Nat}

theorem eq_of_cells {b b' : Block α n} (h : b.cells = b'.cells) : b = b' := by
  cases b
  cases b'
  cases h
  rfl

def replicate (n : Nat) (a : α) : Block α n := ⟨List.replicate n a, List.length_replicate⟩

def set (b : Block α n) (i : Nat) (a : α) : Block α n :=
  ⟨b.cells.set i a, by rw [List.length_set, b.size]⟩

/-- One thing after the other is put into the entries from `i` on. -/
def storeAll (put : β → δ → Option β) (puts : δ → Bool) :
    Nat → Block β n → List δ → Option (Block β n)
  | _, b, [] => some b
  | i, b, d :: ds =>
    if puts d then
      (b.cells[i]?).bind fun row =>
      (put row d).bind fun row => storeAll put puts (i + 1) (b.set i row) ds
    else storeAll put puts (i + 1) b ds

/-- `for (i = 0; ...) b[i] = *text++` -/
def copy (b : Block α n) (text : List α) : Option (Block α n) :=
  storeAll (fun _ c => some c) (fun _ => true) 0 b text

/-- The entries are made of the things, and the rest is as before. -/
def laid (n : Nat) (zero : β) (row : δ → β) (ds : List δ) : Block β n :=
  ⟨(ds.map row ++ List.replicate n zero).take n, by
    rw [List.length_take, List.length_append, List.length_replicate]
    omega⟩

variable {put : β → δ → Option β} {puts : δ → Bool} {zero : β} {row : δ → β} {ok : δ → Prop}
  {b b' : Block β n} {ds : List δ}

theorem cells_laid (n : Nat) (zero : β) (row : δ → β) (ds : List δ) :
    (laid n zero row ds).cells =
      (ds.take n).map row ++ List.replicate (n - ds.length) zero := by
  show (ds.map row ++ List.replicate n zero).take n = _
  rw [List.take_append, List.map_take, List.length_map, List.take_replicate,
    Nat.min_eq_left (Nat.sub_le _ _)]

theorem laid_nil (n : Nat) (zero : β) (row : δ → β) : laid n zero row [] = replicate n zero := by
  refine eq_of_cells ?_
  rw [cells_laid, List.take_nil, List.map_nil, List.nil_append, List.length_nil, Nat.sub_zero]
  rfl

theorem forall_mem_laid {P : β → Prop} (hzero : P zero) :
    (∀ a ∈ (laid n zero row ds).cells, P a) ↔ ∀ d ∈ ds.take n, P (row d) := by
  rw [cells_laid, List.forall_mem_append, List.forall_mem_map]
  refine and_iff_left (fun a ha => ?_)
  rw [(List.mem_replicate.mp ha).2]
  exact hzero

theorem getElem?_laid {i : Nat} {d : δ} (hi : i < n) (hd : ds[i]? = some d) :
    (laid n zero row ds).cells[i]? = some (row d) := by
  have hlt : i < ds.length := (List.getElem?_eq_some_iff.mp hd).1
  rw [cells_laid, List.getElem?_append_left (by rw [List.length_map, List.length_take]; omega),
    List.getElem?_map, List.getElem?_take_of_lt hi, hd, Option.map_some]

theorem storeAll_behind {i : Nat} (hi : n ≤ i) :
    storeAll put puts i b ds = some b' ↔ (∀ d ∈ ds, puts d = false) ∧ b = b' := by
  induction ds generalizing i with
  | nil =>
    rw [storeAll, Option.some_inj]
    exact (and_iff_right (fun _ h => absurd h List.not_mem_nil)).symm
  | cons d ds ih =>
    rw [storeAll, List.forall_mem_cons]
    cases hputs : puts d with
    | true =>
      rw [if_pos rfl, List.getElem?_eq_none (by rw [b.size]; exact hi)]
      exact iff_of_false (fun h => Option.some_ne_none _ h.symm)
        (fun h => Bool.noConfusion h.1.1)
    | false =>
      rw [if_neg Bool.false_ne_true, ih (Nat.le_succ_of_le hi), eq_self, true_and]

/-- Where each thing is put into an entry by itself. -/
theorem storeAll_iff (hput : ∀ d, puts d = true → ∀ a, put zero d = some a ↔ ok d ∧ a = row d)
    (hblank : ∀ d, puts d = false → row d = zero) {front : List β} {k : Nat}
    (hb : b.cells = front ++ List.replicate k zero) :
    storeAll put puts front.length b ds = some b' ↔
      (∀ d ∈ ds.take k, puts d = true → ok d) ∧ (∀ d ∈ ds.drop k, puts d = false) ∧
        b'.cells = front ++ ((ds.take k).map row ++ List.replicate (k - ds.length) zero) := by
  induction ds generalizing front k b with
  | nil =>
    rw [storeAll, Option.some_inj, List.take_nil, List.drop_nil, List.map_nil, List.nil_append,
      List.length_nil, Nat.sub_zero, ← hb]
    constructor
    · rintro rfl
      exact ⟨fun _ h => absurd h List.not_mem_nil, fun _ h => absurd h List.not_mem_nil, rfl⟩
    · exact fun h => eq_of_cells h.2.2.symm
  | cons d ds ih =>
    cases k with
    | zero =>
      rw [List.replicate_zero, List.append_nil] at hb
      have hfull : n ≤ front.length := by rw [← hb, b.size]
      rw [storeAll_behind hfull, List.take_zero, List.drop_zero, Nat.zero_sub, List.map_nil,
        List.replicate_zero, List.append_nil, List.append_nil, ← hb]
      constructor
      · rintro ⟨hnone, rfl⟩
        exact ⟨fun _ h => absurd h List.not_mem_nil, hnone, rfl⟩
      · exact fun h => ⟨h.2.1, eq_of_cells h.2.2.symm⟩
    | succ k =>
      rw [List.replicate_succ] at hb
      -- what is behind the first entry
      have hrest (c : Block β n) (hc : c.cells = (front ++ [row d]) ++ List.replicate k zero) :
          storeAll put puts (front.length + 1) c ds = some b' ↔
            (∀ d ∈ ds.take k, puts d = true → ok d) ∧ (∀ d ∈ ds.drop k, puts d = false) ∧
              b'.cells = front ++ (row d :: (ds.take k).map row ++
                List.replicate (k - ds.length) zero) := by
        have hlength : front.length + 1 = (front ++ [row d]).length := by
          rw [List.length_append, List.length_singleton]
        rw [hlength, ih hc, List.append_assoc, List.singleton_append, List.cons_append]
      rw [storeAll, List.take_succ_cons, List.drop_succ_cons, List.length_cons,
        Nat.add_sub_add_right, List.forall_mem_cons, List.map_cons]
      cases hputs : puts d with
      | true =>
        have hat : b.cells[front.length]? = some zero := by
          rw [hb, List.getElem?_append_right (Nat.le_refl _), Nat.sub_self,
            List.getElem?_cons_zero]
        have hset : (b.set front.length (row d)).cells =
            (front ++ [row d]) ++ List.replicate k zero := by
          show b.cells.set front.length (row d) = _
          rw [hb, List.set_append_right _ _ (Nat.le_refl _), Nat.sub_self, List.set_cons_zero,
            List.append_assoc, List.singleton_append]
        rw [if_pos rfl, hat, Option.bind_some, forall_prop_of_true rfl]
        by_cases hok : ok d
        · rw [(hput d hputs _).mpr ⟨hok, rfl⟩, Option.bind_some, hrest _ hset, and_iff_right hok]
        · refine iff_of_false (fun h => ?_) (fun h => hok h.1.1)
          obtain ⟨a, ha, -⟩ := Option.bind_eq_some_iff.mp h
          exact hok ((hput d hputs a).mp ha).1
      | false =>
        have hsame : b.cells = (front ++ [row d]) ++ List.replicate k zero := by
          rw [hb, hblank d hputs, List.append_assoc, List.singleton_append]
        rw [if_neg Bool.false_ne_true, hrest b hsame,
          and_iff_right (fun h : false = true => absurd h Bool.false_ne_true)]

/-- All entries from the first on. -/
theorem storeAll_laid (hput : ∀ d, puts d = true → ∀ a, put zero d = some a ↔ ok d ∧ a = row d)
    (hblank : ∀ d, puts d = false → row d = zero) :
    storeAll put puts 0 (replicate n zero) ds = some b' ↔
      (∀ d ∈ ds.take n, puts d = true → ok d) ∧ (∀ d ∈ ds.drop n, puts d = false) ∧
        b' = laid n zero row ds := by
  have hcells : (replicate n zero).cells = [] ++ List.replicate n zero := rfl
  rw [show 0 = ([] : List β).length from rfl, storeAll_iff hput hblank hcells, List.nil_append,
    ← cells_laid]
  exact and_congr_right (fun _ => and_congr_right (fun _ => ⟨eq_of_cells, fun h => by rw [h]⟩))

theorem storeAll_from_iff {P Q : β → Prop} (hkept : ∀ a, P a → Q a)
    (hput : ∀ d, puts d = true → ∀ a, P a → ((∃ a', put a d = some a' ∧ Q a') ↔ ok d))
    {front old : List β} (hb : b.cells = front ++ old) (hold : ∀ a ∈ old, P a) :
    (∃ b', storeAll put puts front.length b ds = some b' ∧ ∀ a ∈ b'.cells, Q a) ↔
      (∀ a ∈ front, Q a) ∧ (∀ d ∈ ds.take old.length, puts d = true → ok d) ∧
        ∀ d ∈ ds.drop old.length, puts d = false := by
  induction ds generalizing front old b with
  | nil =>
    have hrest : ∀ a ∈ old, Q a := fun a ha => hkept a (hold a ha)
    simpa [storeAll, hb, or_imp, forall_and] using fun _ => hrest
  | cons d ds ih =>
    cases old with
    | nil =>
      have hfull : n ≤ front.length := by rw [← b.size, hb, List.append_nil]
      simp only [storeAll_behind hfull, List.length_nil, List.take_zero, List.drop_zero]
      rw [List.append_nil] at hb
      constructor
      · rintro ⟨_, ⟨hnone, rfl⟩, hall⟩
        exact ⟨hb ▸ hall, fun _ h => absurd h List.not_mem_nil, hnone⟩
      · exact fun h => ⟨b, ⟨h.2.2, rfl⟩, hb ▸ h.1⟩
    | cons a old =>
      obtain ⟨ha, hold⟩ := List.forall_mem_cons.mp hold
      have hlength (c : β) : front.length + 1 = (front ++ [c]).length := by
        rw [List.length_append, List.length_singleton]
      rw [storeAll, List.length_cons, List.take_succ_cons, List.drop_succ_cons,
        List.forall_mem_cons]
      cases hputs : puts d with
      | false =>
        have hcells : b.cells = (front ++ [a]) ++ old := by rw [hb, List.append_assoc]; rfl
        rw [if_neg Bool.false_ne_true, hlength a, ih hcells hold]
        simp [or_imp, forall_and, hkept a ha]
      | true =>
        have hat : b.cells[front.length]? = some a := by
          rw [hb, List.getElem?_append_right (Nat.le_refl _), Nat.sub_self,
            List.getElem?_cons_zero]
        have hset (c : β) : (b.set front.length c).cells = (front ++ [c]) ++ old := by
          show b.cells.set front.length c = _
          rw [hb, List.set_append_right _ _ (Nat.le_refl _), Nat.sub_self, List.set_cons_zero,
            List.append_assoc, List.singleton_append]
        rw [if_pos rfl, hat, Option.bind_some, forall_prop_of_true rfl, ← hput d hputs a ha]
        constructor
        · rintro ⟨b', hstore, hall⟩
          obtain ⟨c, hc, hstore⟩ := Option.bind_eq_some_iff.mp hstore
          rw [hlength c] at hstore
          obtain ⟨hfront, hrest⟩ := (ih (hset c) hold).mp ⟨b', hstore, hall⟩
          obtain ⟨hfront, hown⟩ := List.forall_mem_append.mp hfront
          exact ⟨hfront, ⟨⟨c, hc, hown c List.mem_cons_self⟩, hrest.1⟩, hrest.2⟩
        · rintro ⟨hfront, ⟨⟨c, hc, hown⟩, hrest⟩, hmore⟩
          have hown : ∀ e ∈ front ++ [c], Q e :=
            List.forall_mem_append.mpr ⟨hfront, List.forall_mem_singleton.mpr hown⟩
          obtain ⟨b', hstore, hall⟩ := (ih (hset c) hold).mpr ⟨hown, hrest, hmore⟩
          rw [← hlength c] at hstore
          exact ⟨b', Option.bind_eq_some_iff.mpr ⟨c, hc, hstore⟩, hall⟩

/-- Where things are put over entries with a property, of which all keep another one. -/
theorem storeAll_over_iff {P Q : β → Prop} (hkept : ∀ a, P a → Q a)
    (hput : ∀ d, puts d = true → ∀ a, P a → ((∃ a', put a d = some a' ∧ Q a') ↔ ok d))
    (hold : ∀ a ∈ b.cells, P a) :
    (∃ b', storeAll put puts 0 b ds = some b' ∧ ∀ a ∈ b'.cells, Q a) ↔
      (∀ d ∈ ds.take n, puts d = true → ok d) ∧ ∀ d ∈ ds.drop n, puts d = false := by
  refine (storeAll_from_iff hkept hput (List.nil_append b.cells).symm hold).trans ?_
  rw [b.size]
  exact and_iff_right fun _ h => absurd h List.not_mem_nil

section Copy

variable {nul : α} {text : List α} {a c : Block α n}

theorem copyFrom_iff {front old : List α} (hc : c.cells = front ++ old) :
    storeAll (fun _ c => some c) (fun _ => true) front.length c text = some a ↔
      text.length ≤ old.length ∧ a.cells = front ++ (text ++ old.drop text.length) := by
  induction text generalizing front old c with
  | nil =>
    rw [storeAll, Option.some_inj, List.nil_append, List.length_nil, List.drop_zero, ← hc]
    exact ⟨fun h => ⟨Nat.zero_le _, by rw [h]⟩, fun h => eq_of_cells h.2.symm⟩
  | cons d text ih =>
    rw [storeAll, if_pos rfl, hc, List.getElem?_append_right (Nat.le_refl _), Nat.sub_self]
    cases old with
    | nil => exact iff_of_false (fun h => Option.some_ne_none _ h.symm) (fun h => by simp at h)
    | cons e old =>
      have hset : (c.set front.length d).cells = (front ++ [d]) ++ old := by
        show c.cells.set front.length d = _
        rw [hc, List.set_append_right _ _ (Nat.le_refl _), Nat.sub_self, List.set_cons_zero,
          List.append_assoc, List.singleton_append]
      have hlength : front.length + 1 = (front ++ [d]).length := by
        rw [List.length_append, List.length_singleton]
      rw [List.getElem?_cons_zero, Option.bind_some, Option.bind_some, hlength, ih hset,
        List.length_cons, List.length_cons, Nat.add_le_add_iff_right, List.drop_succ_cons,
        List.append_assoc, List.singleton_append, List.cons_append]

/-- The text stands at the beginning, and the rest is as before. -/
theorem copy_cells_iff : c.copy text = some a ↔
    text.length ≤ n ∧ a.cells = text ++ c.cells.drop text.length := by
  have hc : c.cells = [] ++ c.cells := rfl
  rw [copy, show 0 = ([] : List α).length from rfl, copyFrom_iff hc, c.size, List.nil_append]

theorem copy_iff : (replicate n nul).copy text = some a ↔
    text.length ≤ n ∧ a = laid n nul id text := by
  rw [copy_cells_iff]
  refine and_congr_right (fun hle => ?_)
  have hcells : (laid n nul id text).cells = text ++ (replicate n nul).cells.drop text.length := by
    rw [cells_laid, List.take_of_length_le hle, List.map_id, replicate, List.drop_replicate]
  rw [← hcells]
  exact ⟨eq_of_cells, fun h => by rw [h]⟩

theorem exists_copy (h : text.length ≤ n) :
    ∃ a, c.copy text = some a ∧ a.cells = text ++ c.cells.drop text.length := by
  refine ⟨⟨text ++ c.cells.drop text.length, ?_⟩, copy_cells_iff.mpr ⟨h, rfl⟩, rfl⟩
  rw [List.length_append, List.length_drop, c.size]
  omega

theorem copy_terminated_iff (hlast : c.cells.getLast? = some nul) :
    (∃ a, c.copy text = some a ∧ a.Terminated nul) ↔ Fits nul n text := by
  obtain ⟨front, hfront⟩ := List.getLast?_eq_some_iff.mp hlast
  have hn : n = front.length + 1 := by rw [← c.size, hfront, List.length_append]; rfl
  constructor
  · rintro ⟨a, hcopy, hmem⟩
    obtain ⟨hle, hcells⟩ := copy_cells_iff.mp hcopy
    rw [Terminated, hcells] at hmem
    rcases Nat.lt_or_eq_of_le hle with hlt | hfull
    · exact Or.inl hlt
    · rw [List.drop_of_length_le (by rw [c.size, hfull]), List.append_nil] at hmem
      exact Or.inr ⟨hfull, hmem⟩
  · intro hfits
    obtain ⟨a, ha, hcells⟩ :=
      exists_copy (c := c) (hfits.elim Nat.le_of_lt fun h => Nat.le_of_eq h.1)
    refine ⟨a, ha, ?_⟩
    rw [Terminated, hcells]
    rcases hfits with hlt | ⟨-, hmem⟩
    · refine List.mem_append_right _ ?_
      rw [hfront, List.drop_append_of_le_length (by omega)]
      exact List.mem_append_right _ List.mem_cons_self
    · exact List.mem_append_left _ hmem

/-- `b[i] = c` -/
def store (b : Block α n) (i : Nat) (c : α) : Option (Block α n) :=
  if i < n then some (b.set i c) else none

theorem cells_text (h : text.length ≤ n) :
    (laid n nul id text).cells = text ++ List.replicate (n - text.length) nul := by
  rw [cells_laid, List.take_of_length_le h, List.map_id]

theorem terminated_text (h : text.length ≤ n) :
    (laid n nul id text).Terminated nul ↔ Fits nul n text := by
  rw [Terminated, cells_text h, List.mem_append, List.mem_replicate, eq_self, and_true, Fits]
  by_cases hmem : nul ∈ text
  · exact iff_of_true (Or.inl hmem) ((Nat.lt_or_eq_of_le h).imp_right (fun heq => ⟨heq, hmem⟩))
  · rw [or_iff_right hmem, or_iff_left (fun hboth : _ ∧ _ => hmem hboth.2)]
    omega

theorem string_text [DecidableEq α] (h : text.length ≤ n) :
    (laid n nul id text).string nul = stringOf nul text := by
  rw [string, cells_text h]
  cases n - text.length with
  | zero => rw [List.replicate_zero, List.append_nil]
  | succ k => rw [List.replicate_succ, stringOf_append_nul]

end Copy

end Block

end Serveez.Lib
