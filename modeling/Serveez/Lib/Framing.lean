import Mathlib.Data.List.Infix

/-!
# Splitting a stream after a delimiter

A stream is split after the leftmost occurrence of the delimiter, again and again.

* `IsSplit.unique`: there is one way to do it.
* `IsSplit.append`: the split of a longer stream continues from the rest.
-/

namespace Serveez.Lib

variable {α : Type*} {b s t p q : List α}

/-- The delimiter `b` stands at position `i` of `s`. -/
def OccursAt (b s : List α) (i : Nat) : Prop := b <+: s.drop i

theorem OccursAt.append {i : Nat} (h : OccursAt b s i) (hi : i ≤ s.length) :
    OccursAt b (s ++ t) i := by
  unfold OccursAt
  rw [List.drop_append_of_le_length hi]
  exact h.trans (List.prefix_append _ _)

theorem OccursAt.le {i : Nat} (h : OccursAt b s i) (hb : b ≠ []) : i + b.length ≤ s.length := by
  have hlen := h.length_le
  have hpos := List.length_pos_iff.mpr hb
  rw [List.length_drop] at hlen
  omega

theorem occursAt_take_iff {i n : Nat} (hb : b ≠ []) :
    OccursAt b (s.take n) i ↔ OccursAt b s i ∧ i + b.length ≤ n := by
  have hpos := List.length_pos_iff.mpr hb
  unfold OccursAt
  rw [List.drop_take, List.prefix_take_iff]
  refine and_congr_right fun _ => ?_
  omega

theorem occursAt_drop {i k : Nat} : OccursAt b (s.drop k) i ↔ OccursAt b s (k + i) := by
  unfold OccursAt
  rw [List.drop_drop]

/-- A packet ends in the delimiter, which stands nowhere else in it. -/
structure IsPacket (b p : List α) : Prop where
  le : b.length ≤ p.length
  only : ∀ i, OccursAt b p i ↔ i + b.length = p.length

theorem isPacket_take (hb : b ≠ []) {j : Nat} (hat : OccursAt b s j)
    (hfirst : ∀ i, i < j → ¬ OccursAt b s i) : IsPacket b (s.take (j + b.length)) := by
  have hlen : (s.take (j + b.length)).length = j + b.length :=
    List.length_take_of_le (hat.le hb)
  refine ⟨by omega, fun i => ?_⟩
  rw [occursAt_take_iff hb, hlen]
  constructor
  · intro h
    have hge : ¬ i < j := fun hlt => hfirst i hlt h.1
    omega
  · intro h
    obtain rfl : i = j := by omega
    exact ⟨hat, Nat.le_refl _⟩

theorem IsPacket.eq_of_prefix_le (hp : IsPacket b p) (hq : IsPacket b q) (hpq : p <+: q) :
    p = q := by
  obtain ⟨u, rfl⟩ := hpq
  have hend : OccursAt b p (p.length - b.length) :=
    (hp.only _).mpr (Nat.sub_add_cancel hp.le)
  have hlen := (hq.only _).mp (hend.append (Nat.sub_le _ _))
  rw [Nat.sub_add_cancel hp.le, List.length_append] at hlen
  rw [List.eq_nil_of_length_eq_zero (show u.length = 0 by omega), List.append_nil]

theorem IsPacket.eq_of_append_eq (hp : IsPacket b p) (hq : IsPacket b q)
    (h : p ++ s = q ++ t) : p = q := by
  have hps : p <+: p ++ s := List.prefix_append p s
  have hqs : q <+: p ++ s := h ▸ List.prefix_append q t
  rcases Nat.le_total p.length q.length with hle | hle
  · exact hp.eq_of_prefix_le hq (List.prefix_of_prefix_length_le hps hqs hle)
  · exact (hq.eq_of_prefix_le hp (List.prefix_of_prefix_length_le hqs hps hle)).symm

/-- Packets whose bytes stand at the start of other packets' are the first of them. -/
theorem packets_prefix (hb : b ≠ []) : ∀ {packets more : List (List α)},
    (∀ p ∈ packets, IsPacket b p) → (∀ p ∈ more, IsPacket b p) →
      packets.flatten <+: more.flatten → packets <+: more := by
  intro packets
  induction packets with
  | nil => exact fun _ _ _ => List.nil_prefix
  | cons p packets ih =>
    intro more hpackets hmore hprefix
    have hp := hpackets p List.mem_cons_self
    cases more with
    | nil =>
      have hlen := hprefix.length_le
      have hpos := List.length_pos_iff.mpr hb
      have hle := hp.le
      simp only [List.flatten_cons, List.length_append, List.flatten_nil, List.length_nil] at hlen
      omega
    | cons q more =>
      obtain ⟨rest, hrest⟩ := hprefix
      rw [List.flatten_cons, List.flatten_cons, List.append_assoc] at hrest
      obtain rfl := hp.eq_of_append_eq (hmore q List.mem_cons_self) hrest
      apply (List.prefix_cons_inj p).mpr
      apply ih (fun p hp => hpackets p (List.mem_cons_of_mem _ hp))
        (fun p hp => hmore p (List.mem_cons_of_mem _ hp))
      exact ⟨rest, List.append_cancel_left hrest⟩

/-! ## A delimiter of one element -/

theorem occursAt_singleton {a : α} {i : Nat} : OccursAt [a] s i ↔ s[i]? = some a := by
  unfold OccursAt
  rw [List.singleton_prefix_iff_head?_eq_some, List.head?_drop]

theorem not_occursAt_of_not_mem {a : α} (h : a ∉ s) (i : Nat) : ¬ OccursAt [a] s i :=
  fun hat => h (List.mem_of_getElem? (occursAt_singleton.mp hat))

theorem isPacket_concat {a : α} (h : a ∉ s) : IsPacket [a] (s ++ [a]) where
  le := by rw [List.length_append]; exact Nat.le_add_left _ _
  only := by
    intro i
    rw [occursAt_singleton, List.length_append, List.length_singleton, Nat.add_right_cancel_iff]
    constructor
    · intro hat
      rcases Nat.lt_trichotomy i s.length with hlt | heq | hgt
      · rw [List.getElem?_append_left hlt] at hat
        exact absurd (List.mem_of_getElem? hat) h
      · exact heq
      · rw [List.getElem?_eq_none (by rw [List.length_append, List.length_singleton]; omega)] at hat
        exact absurd hat.symm (Option.some_ne_none a)
    · rintro rfl
      exact List.getElem?_concat_length

/-- The packets of the stream `s` and the rest behind the last of them. -/
structure IsSplit (b s : List α) (packets : List (List α)) (rest : List α) : Prop where
  stream : packets.flatten ++ rest = s
  packet : ∀ p ∈ packets, IsPacket b p
  rest : ∀ i, ¬ OccursAt b rest i

namespace IsSplit

variable {packets more : List (List α)} {rest last : List α}

theorem none (h : ∀ i, ¬ OccursAt b s i) : IsSplit b s [] s where
  stream := rfl
  packet := by simp
  rest := h

theorem cons (hp : IsPacket b p) (h : IsSplit b s packets rest) :
    IsSplit b (p ++ s) (p :: packets) rest where
  stream := by rw [List.flatten_cons, List.append_assoc, h.stream]
  packet := List.forall_mem_cons.mpr ⟨hp, h.packet⟩
  rest := h.rest

/-- New bytes are split together with the rest of the old ones. -/
theorem append (h : IsSplit b s packets rest) (hmore : IsSplit b (rest ++ t) more last) :
    IsSplit b (s ++ t) (packets ++ more) last where
  stream := by
    rw [List.flatten_append, List.append_assoc, hmore.stream, ← List.append_assoc, h.stream]
  packet := by
    intro p hp
    rcases List.mem_append.mp hp with hp | hp
    · exact h.packet p hp
    · exact hmore.packet p hp
  rest := hmore.rest

/-- A stream that starts with a packet is not a rest. -/
theorem occursAt_packet (hp : IsPacket b p) : OccursAt b (p ++ s) (p.length - b.length) :=
  ((hp.only _).mpr (Nat.sub_add_cancel hp.le)).append (Nat.sub_le _ _)

theorem unique : ∀ {packets more : List (List α)} {s rest last : List α},
    IsSplit b s packets rest → IsSplit b s more last → packets = more ∧ rest = last := by
  intro packets
  induction packets with
  | nil =>
    intro more s rest last h h'
    cases more with
    | nil => exact ⟨rfl, h.stream.trans h'.stream.symm⟩
    | cons q more =>
      have hq : IsPacket b q := h'.packet q List.mem_cons_self
      have hrest : rest = q ++ (more.flatten ++ last) := by
        rw [← List.append_assoc, ← List.flatten_cons, h'.stream]
        exact h.stream
      exact absurd (hrest ▸ occursAt_packet hq) (h.rest _)
  | cons p packets ih =>
    intro more s rest last h h'
    have hp : IsPacket b p := h.packet p List.mem_cons_self
    have hs : p ++ (packets.flatten ++ rest) = s := by
      rw [← List.append_assoc, ← List.flatten_cons, h.stream]
    cases more with
    | nil =>
      have hlast : last = p ++ (packets.flatten ++ rest) := by
        rw [hs]
        exact h'.stream
      exact absurd (hlast ▸ occursAt_packet hp) (h'.rest _)
    | cons q more =>
      have hq : IsPacket b q := h'.packet q List.mem_cons_self
      have hs' : q ++ (more.flatten ++ last) = s := by
        rw [← List.append_assoc, ← List.flatten_cons, h'.stream]
      obtain rfl : p = q := hp.eq_of_append_eq hq (hs.trans hs'.symm)
      have htail := List.append_cancel_left (hs.trans hs'.symm)
      obtain ⟨rfl, rfl⟩ := ih
        ⟨rfl, fun z hz => h.packet z (List.mem_cons_of_mem _ hz), h.rest⟩
        ⟨htail.symm, fun z hz => h'.packet z (List.mem_cons_of_mem _ hz), h'.rest⟩
      exact ⟨rfl, rfl⟩

end IsSplit

end Serveez.Lib
