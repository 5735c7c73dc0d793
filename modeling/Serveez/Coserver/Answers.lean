import Serveez.Coserver.Protocol

/-!
# Every callback gets its own answer

The requests that went to one coserver are, in the order in which they were sent: those whose
line has been handled, those that the coserver has read, those in the pipe, and those lost
when the socket was killed (`Flow`). Every request with an id other than zero that has not
been answered has its callback in the table.

* `Flow.send`, `Flow.work`, `Flow.handle`: how a request moves on.
* `step_good`: what a step keeps under its condition.
* `run_answers`: what holds in every state of a run.
-/

namespace Serveez.Coserver.Protocol

open Lib

variable {α : Type*} (callback : Nat → Nat → Text → Option Text)

/-- The response to a request on its way back; the id zero is not answered. -/
def response (r : Sent α) : Text :=
  if r.id = 0 then [] else line r.id ((callback r.coserver r.turn r.text).getD [])

structure Flow (c : Channel) (l : List (Sent α)) (called : List Nat)
    (done waiting unread lost : List (Sent α)) (part : Text) : Prop where
  split : l = done ++ (waiting ++ (unread ++ lost))
  whole : c.killed = false → lost = [] ∧ part = []
  short : packetBoundary ∉ part ∧ part.length < bufSize - 1
  requests : c.requests = unread.flatMap (fun r => line r.id r.text) ++ part
  turn : c.turn = done.length + waiting.length
  responses : c.recvBuffer ++ c.responses = waiting.flatMap (response callback)
  called : ∀ r ∈ l, r.callback.block ∈ called ↔ r ∈ done ∧ r.id ≠ 0

def Flows (c : Channel) (l : List (Sent α)) (called : List Nat) : Prop :=
  ∃ done waiting unread lost part, Flow callback c l called done waiting unread lost part

/-- What `Sendable` promises of a request. -/
def WellFormed (r : Sent α) : Prop :=
  r.id < unsignedSize ∧ packetBoundary ∉ r.text ∧ (line r.id r.text).length ≤ bufSize - 1

structure Good (s : State α) : Prop where
  answers : Answers callback s
  id : s.callbackId < unsignedSize
  blocks : s.sent.map (·.callback.block) = List.range s.sent.length
  wellFormed : ∀ r ∈ s.sent, WellFormed r
  target : ∀ r ∈ s.sent, r.coserver < s.coservers.length
  turns : ∀ i, (sentTo s i).map (·.turn) = List.range (sentTo s i).length
  table : ∀ r ∈ s.sent, r.id ≠ 0 → r.callback.block ∉ called s →
    s.callbacks (svzItoa r.id) = some r.callback
  calling : ∀ key, s.calling = some key → ∃ r ∈ s.sent, r.id ≠ 0 ∧ key = svzItoa r.id ∧
    s.callbacks key = some r.callback ∧ r.callback.block ∈ called s
  flow : ∀ i c, s.coservers[i]? = some c → Flows callback c (sentTo s i) (called s)

variable {callback} {s : State α} {c d : Channel} {l : List (Sent α)} {blocks : List Nat}

/-! ## One coserver -/

theorem Flows.frame (h : Flows callback c l blocks) (hkilled : d.killed = c.killed)
    (hrequests : d.requests = c.requests) (hturn : d.turn = c.turn)
    (hresponses : d.recvBuffer ++ d.responses = c.recvBuffer ++ c.responses) :
    Flows callback d l blocks := by
  obtain ⟨done, waiting, unread, lost, part, hf⟩ := h
  exact ⟨done, waiting, unread, lost, part, hf.split, by rw [hkilled]; exact hf.whole, hf.short,
    hrequests.trans hf.requests, hturn.trans hf.turn, hresponses.trans hf.responses, hf.called⟩

theorem Flows.congr_called {blocks' : List Nat} (h : Flows callback c l blocks)
    (hsame : ∀ r ∈ l, r.callback.block ∈ blocks' ↔ r.callback.block ∈ blocks) :
    Flows callback c l blocks' := by
  obtain ⟨done, waiting, unread, lost, part, hf⟩ := h
  exact ⟨done, waiting, unread, lost, part, hf.split, hf.whole, hf.short, hf.requests, hf.turn,
    hf.responses, fun r hr => (hsame r hr).trans (hf.called r hr)⟩

theorem boundary_notMem_take {id n : Nat} {text : Text} (h : packetBoundary ∉ text)
    (hn : n < (line id text).length) : packetBoundary ∉ (line id text).take n := by
  rw [line_eq, List.length_append, List.length_singleton] at hn
  rw [line_eq, List.take_append_of_le_length (by omega)]
  exact fun hmem => boundary_notMem_body h (List.mem_of_mem_take hmem)

variable {r : Sent α} {i : Nat}

/-- A new request goes into the pipe, or is lost. -/
theorem Flow.send {done waiting unread lost : List (Sent α)} {part : Text}
    (h : Flow callback c l blocks done waiting unread lost part) (hr : WellFormed r)
    (hblock : r.callback.block ∉ blocks) (hnew : r ∉ l) (busy : Int) (fails : Option Nat) :
    Flows callback (printf { c with busy := busy } (line r.id r.text) fails) (l ++ [r]) blocks := by
  have hcalled : ∀ q ∈ l ++ [r], q.callback.block ∈ blocks ↔ q ∈ done ∧ q.id ≠ 0 := by
    intro q hq
    rcases List.mem_append.mp hq with hq | hq
    · exact h.called q hq
    · obtain rfl := List.mem_singleton.mp hq
      refine iff_of_false hblock fun hdone => hnew ?_
      rw [h.split]
      exact List.mem_append_left _ hdone.1
  unfold printf
  cases hkilled : c.killed with
  | true =>
    refine ⟨done, waiting, unread, lost ++ [r], part, ?_, ?_, h.short, h.requests, h.turn,
      h.responses, hcalled⟩
    · simp only [h.split, List.append_assoc]
    · simp
  | false =>
    obtain ⟨rfl, rfl⟩ := h.whole hkilled
    have hsplit : l ++ [r] = done ++ (waiting ++ ((unread ++ [r]) ++ [])) := by
      simp only [h.split, List.append_assoc, List.append_nil]
    have hall : c.requests ++ line r.id r.text =
        (unread ++ [r]).flatMap (fun q => line q.id q.text) ++ [] := by
      rw [h.requests, List.flatMap_append, List.flatMap_singleton, List.append_nil,
        List.append_nil]
    simp only [Bool.false_eq_true, if_false]
    cases fails with
    | none =>
      exact ⟨done, waiting, unread ++ [r], [], [], hsplit, fun _ => ⟨rfl, rfl⟩, h.short, hall,
        h.turn, h.responses, hcalled⟩
    | some queued =>
      by_cases hq : queued < (line r.id r.text).length
      · refine ⟨done, waiting, unread, [r], (line r.id r.text).take queued, ?_, by simp, ?_, ?_,
          h.turn, h.responses, hcalled⟩
        · simp only [h.split, List.append_assoc, List.append_nil]
        · refine ⟨boundary_notMem_take hr.2.1 hq, ?_⟩
          have hlen := hr.2.2
          rw [List.length_take]
          omega
        · simp only [h.requests, List.append_nil]
      · refine ⟨done, waiting, unread ++ [r], [], [], hsplit, by simp, h.short, ?_,
          h.turn, h.responses, hcalled⟩
        dsimp only
        rw [List.take_of_length_le (Nat.le_of_not_lt hq)]
        exact hall

theorem Flow.work {done waiting unread lost : List (Sent α)} {part : Text}
    (h : Flow callback c l blocks done waiting unread lost part) (hwell : ∀ r ∈ l, WellFormed r)
    (htarget : ∀ r ∈ l, r.coserver = i) (hturns : l.map (·.turn) = List.range l.length)
    {request rest out : Text} (hread : fgets bufSize c.requests = some (request, rest))
    (hout : coserverRequest (callback i c.turn) request = some out)
    (hfits : ∀ next ∈ nextRequest c, next.1.1 ≠ 0 →
      (line next.1.1 ((callback i c.turn next.1.2).getD [])).length ≤ bufSize - 1) :
    Flows callback { c with requests := rest, turn := c.turn + 1, responses := c.responses ++ out }
      l blocks := by
  have hrequests := h.requests
  cases unread with
  | nil =>
    rw [List.flatMap_nil, List.nil_append] at hrequests
    rw [hrequests, fgets_eq_none h.short.1 h.short.2] at hread
    cases hread
  | cons r unread =>
    have hmem : r ∈ l := by
      rw [h.split]
      simp
    obtain ⟨hid, htext, hlen⟩ := hwell r hmem
    have hturn : r.turn = c.turn := by
      have hget : (l.map (·.turn))[done.length + waiting.length]? = some r.turn := by
        rw [h.split]
        simp
      rw [hturns, List.getElem?_range (by rw [h.split]; simp)] at hget
      exact (Option.some.inj hget).symm.trans h.turn.symm
    rw [List.flatMap_cons, List.append_assoc] at hrequests
    have hline := fgets_line htext hlen (unread.flatMap (fun q => line q.id q.text) ++ part)
    rw [← hrequests] at hline
    cases hline.symm.trans hread
    have hnext : nextRequest c = some ((r.id, r.text), unread.flatMap (fun q => line q.id q.text)
        ++ part) := by
      rw [nextRequest, hline, Option.bind_some]
      dsimp only
      rw [getId_line hid htext, Option.map_some]
    have hresponse : out = response callback r := by
      rw [coserverRequest, getId_line hid htext, Option.map_some] at hout
      rw [← Option.some.inj hout, response, htarget r hmem, hturn]
      dsimp only
      split
      · rfl
      · rename_i hne
        exact putId_eq_line (hfits _ hnext hne)
    refine ⟨done, waiting ++ [r], unread, lost, part, ?_, h.whole, h.short, rfl, ?_, ?_, h.called⟩
    · rw [h.split, List.append_assoc, List.singleton_append, List.cons_append]
    · rw [h.turn, List.length_append, List.length_singleton, Nat.add_assoc]
    · rw [List.flatMap_append, ← h.responses, List.flatMap_singleton, hresponse,
        List.append_assoc]

theorem boundary_notMem_result
    (hresult : ∀ i n text result, callback i n text = some result → packetBoundary ∉ result)
    (r : Sent α) : packetBoundary ∉ (callback r.coserver r.turn r.text).getD [] := by
  cases hcb : callback r.coserver r.turn r.text with
  | none => exact List.not_mem_nil
  | some result => exact hresult _ _ _ _ hcb

/-- The first line among the responses is that of the first request with an id other than
zero. -/
theorem first_response {waiting : List (Sent α)} (hwell : ∀ r ∈ waiting, WellFormed r)
    (hresult : ∀ i n text result, callback i n text = some result → packetBoundary ∉ result)
    {buffer more request rest : Text} (hline : nextLine buffer = some (request, rest))
    (hflow : buffer ++ more = waiting.flatMap (response callback)) :
    ∃ zeros r later, waiting = zeros ++ r :: later ∧ (∀ q ∈ zeros, q.id = 0) ∧ r.id ≠ 0 ∧
      request = response callback r ∧ rest ++ more = later.flatMap (response callback) := by
  have hmore := nextLine_append hline more
  rw [hflow] at hmore
  clear hflow hline
  induction waiting with
  | nil => exact absurd hmore (by simp [nextLine, lineLength])
  | cons r waiting ih =>
    by_cases hid : r.id = 0
    · rw [List.flatMap_cons, response, if_pos hid, List.nil_append] at hmore
      obtain ⟨zeros, e, later, rfl, hzeros, he, hreq, hrest⟩ :=
        ih (fun q hq => hwell q (List.mem_cons_of_mem r hq)) hmore
      refine ⟨r :: zeros, e, later, rfl, ?_, he, hreq, hrest⟩
      intro q hq
      rcases List.mem_cons.mp hq with rfl | hq
      · exact hid
      · exact hzeros q hq
    · have hresponse : response callback r =
          line r.id ((callback r.coserver r.turn r.text).getD []) := if_neg hid
      rw [List.flatMap_cons, hresponse, nextLine_line (boundary_notMem_result hresult r),
        Option.some.injEq, Prod.mk.injEq] at hmore
      exact ⟨[], r, waiting, rfl, by simp, hid, hresponse ▸ hmore.1.symm, hmore.2.symm⟩

theorem Flow.handle {done waiting unread lost : List (Sent α)} {part : Text}
    (h : Flow callback c l blocks done waiting unread lost part)
    (hwell : ∀ r ∈ l, WellFormed r) (hnodup : (l.map (·.callback.block)).Nodup)
    (hresult : ∀ i n text result, callback i n text = some result → packetBoundary ∉ result)
    {request rest : Text} (hline : nextLine c.recvBuffer = some (request, rest)) (busy : Int) :
    ∃ r ∈ l, r.id ≠ 0 ∧ r.callback.block ∉ blocks ∧ request = response callback r ∧
      Flows callback { c with busy := busy, recvBuffer := rest } l
        (blocks ++ [r.callback.block]) := by
  have hwaiting : ∀ r ∈ waiting, r ∈ l := by
    intro r hr
    rw [h.split]
    exact List.mem_append_right _ (List.mem_append_left _ hr)
  obtain ⟨zeros, r, later, rfl, hzeros, hid, hreq, hrest⟩ :=
    first_response (fun q hq => hwell q (hwaiting q hq)) hresult hline h.responses
  have hr : r ∈ l := hwaiting r (by simp)
  have hfresh : r ∉ done := by
    intro hdone
    have hl := hnodup.of_map
    rw [h.split] at hl
    exact List.disjoint_of_nodup_append hl hdone (by simp)
  refine ⟨r, hr, hid, fun hb => hfresh ((h.called r hr).mp hb).1, hreq,
    done ++ (zeros ++ [r]), later, unread, lost, part, ?_, h.whole, h.short, h.requests, ?_, hrest,
    fun q hq => ?_⟩
  · simp only [h.split, List.append_assoc, List.cons_append, List.nil_append]
  · simp only [h.turn, List.length_append, List.length_cons, List.length_nil]
    omega
  · have hsame : q.callback.block = r.callback.block ↔ q = r :=
      ⟨fun he => List.inj_on_of_nodup_map hnodup hq hr he, fun he => by rw [he]⟩
    rw [List.mem_append, List.mem_singleton, h.called q hq, hsame]
    constructor
    · rintro (⟨hdone, hne⟩ | rfl)
      · exact ⟨List.mem_append_left _ hdone, hne⟩
      · exact ⟨by simp, hid⟩
    · rintro ⟨hmem, hne⟩
      rcases List.mem_append.mp hmem with hdone | hmem
      · exact Or.inl ⟨hdone, hne⟩
      · rcases List.mem_append.mp hmem with hz | hlast
        · exact absurd (hzeros q hz) hne
        · exact Or.inr (List.mem_singleton.mp hlast)

/-! ## Unanswered requests -/

theorem pending_append_new (hblock : r.callback.block ∉ blocks) :
    pending blocks (l ++ [r]) = pending blocks l ++ [r] := by
  unfold pending
  rw [List.filter_append, List.filter_cons_of_pos (by simpa using hblock), List.filter_nil]

theorem pending_append_of_ne {b : Nat} (hne : ∀ q ∈ l, q.callback.block ≠ b) :
    pending (blocks ++ [b]) l = pending blocks l := by
  refine List.filter_congr fun q hq => ?_
  simp [hne q hq]

theorem pending_called (hnodup : (l.map (·.callback.block)).Nodup) (hr : r ∈ l)
    (hblock : r.callback.block ∉ blocks) :
    (pending blocks l).length = (pending (blocks ++ [r.callback.block]) l).length + 1 := by
  obtain ⟨before, after, rfl⟩ := List.append_of_mem hr
  have hne : ∀ q ∈ before ++ after, q.callback.block ≠ r.callback.block := by
    have hperm : (before ++ r :: after).Perm (r :: (before ++ after)) := List.perm_middle
    have hcons := (hperm.map (·.callback.block)).nodup_iff.mp hnodup
    rw [List.map_cons, List.nodup_cons] at hcons
    exact fun q hq he => hcons.1 (he ▸ List.mem_map_of_mem hq)
  have hbefore : pending (blocks ++ [r.callback.block]) before = pending blocks before :=
    pending_append_of_ne fun q hq => hne q (List.mem_append_left after hq)
  have hafter : pending (blocks ++ [r.callback.block]) after = pending blocks after :=
    pending_append_of_ne fun q hq => hne q (List.mem_append_right before hq)
  unfold pending at *
  rw [List.filter_append, List.filter_append, List.filter_cons_of_pos (by simpa using hblock),
    List.filter_cons_of_neg (by simp), hbefore, hafter]
  simp only [List.length_append, List.length_cons]
  omega

/-! ## What the invariant gives -/

theorem Good.blocks_nodup (h : Good callback s) : (s.sent.map (·.callback.block)).Nodup :=
  h.blocks ▸ List.nodup_range

theorem sentTo_blocks_nodup (h : Good callback s) (i : Nat) :
    ((sentTo s i).map (·.callback.block)).Nodup :=
  (List.filter_sublist.map _).nodup h.blocks_nodup

theorem mem_sentTo : r ∈ sentTo s i ↔ r ∈ s.sent ∧ r.coserver = i := by
  simp [sentTo]

theorem Good.block_lt (h : Good callback s) (hr : r ∈ s.sent) :
    r.callback.block < s.sent.length := by
  have hmem : r.callback.block ∈ s.sent.map (·.callback.block) := List.mem_map_of_mem hr
  rw [h.blocks] at hmem
  exact List.mem_range.mp hmem

theorem Good.called_lt (h : Good callback s) {b : Nat} (hb : b ∈ called s) :
    b < s.sent.length := by
  obtain ⟨call, hcall, rfl⟩ := List.mem_map.mp hb
  obtain ⟨r, hr, rfl⟩ := h.answers.own call hcall
  exact h.block_lt hr

theorem Good.wellFormed_sentTo (h : Good callback s) :
    ∀ r ∈ sentTo s i, WellFormed r := fun r hr => h.wellFormed r (mem_sentTo.mp hr).1

theorem getElem?_of_active (h : active s i = some c) : s.coservers[i]? = some c :=
  (Option.filter_eq_some_iff.mp h).1

/-! ## Steps that move nothing between requests -/

theorem good_initial : Good callback (initial : State α) where
  answers := ⟨List.nodup_nil, by simp [initial], by simp [initial]⟩
  id := by simp [initial, unsignedSize]
  blocks := rfl
  wellFormed := by simp [initial]
  target := by simp [initial]
  turns := fun _ => rfl
  table := by simp [initial]
  calling := by simp [initial]
  flow := by simp [initial]

theorem Good.channels (h : Good callback s) {coservers : List Channel}
    (hlen : s.coservers.length ≤ coservers.length)
    (hc : ∀ i d, coservers[i]? = some d →
      d.busy = ((pending (called s) (sentTo s i)).length : Int) ∧
        Flows callback d (sentTo s i) (called s)) :
    Good callback { s with coservers := coservers } where
  answers := ⟨h.answers.once, h.answers.own, fun i d hd => (hc i d hd).1⟩
  id := h.id
  blocks := h.blocks
  wellFormed := h.wellFormed
  target := fun r hr => Nat.lt_of_lt_of_le (h.target r hr) hlen
  turns := h.turns
  table := h.table
  calling := h.calling
  flow := fun i d hd => (hc i d hd).2

theorem Good.set (h : Good callback s) (hi : s.coservers[i]? = some c) (hbusy : d.busy = c.busy)
    (hflow : Flows callback c (sentTo s i) (called s) → Flows callback d (sentTo s i) (called s)) :
    Good callback { s with coservers := s.coservers.set i d } := by
  refine h.channels (by rw [List.length_set]) fun j e he => ?_
  by_cases hj : i = j
  · subst hj
    obtain ⟨hlt, -⟩ := List.getElem?_eq_some_iff.mp hi
    rw [List.getElem?_set_self hlt, Option.some.injEq] at he
    subst he
    exact ⟨hbusy.trans (h.answers.busy i c hi), hflow (h.flow i c hi)⟩
  · rw [List.getElem?_set_ne hj] at he
    exact ⟨h.answers.busy j e he, h.flow j e he⟩

theorem start_good (h : Good callback s) (type : Nat) : Good callback (start s type) := by
  refine h.channels (by simp) fun i d hd => ?_
  rcases Nat.lt_or_ge i s.coservers.length with hlt | hge
  · rw [List.getElem?_append_left hlt] at hd
    exact ⟨h.answers.busy i d hd, h.flow i d hd⟩
  · rw [List.getElem?_append_right hge, List.getElem?_singleton] at hd
    have hnone : sentTo s i = [] := by
      refine List.filter_eq_nil_iff.mpr fun r hr => ?_
      have := h.target r hr
      simp only [decide_eq_true_eq]
      omega
    split at hd
    · cases hd
      rw [hnone]
      exact ⟨rfl, [], [], [], [], [], rfl, fun _ => ⟨rfl, rfl⟩, by simp [bufSize], rfl, rfl, rfl,
        by simp⟩
    · cases hd

theorem disconnect_good (h : Good callback s) (i : Nat) : Good callback (disconnect s i) := by
  refine h.channels (by rw [List.length_modify]) fun j d hd => ?_
  rw [List.getElem?_modify] at hd
  obtain ⟨c, hc, rfl⟩ := Option.map_eq_some_iff.mp hd
  have hflow := h.flow j c hc
  split
  · exact ⟨h.answers.busy j c hc, hflow.frame rfl rfl rfl rfl⟩
  · exact ⟨h.answers.busy j c hc, hflow⟩

theorem readSocket_good (h : Good callback s) (i n : Nat) : Good callback (readSocket s i n) := by
  unfold readSocket
  cases hi : active s i with
  | none => exact h
  | some c =>
    refine h.set (getElem?_of_active hi) rfl fun hf => hf.frame rfl rfl rfl ?_
    rw [List.append_assoc, List.take_append_drop]

theorem bigLoop_good (h : Good callback s) (i : Nat) (hharm : Harmless callback s (.bigLoop i)) :
    Good callback (bigLoop callback s i) := by
  unfold bigLoop
  cases hi : active s i with
  | none => exact h
  | some c =>
    dsimp only
    cases hread : fgets bufSize c.requests with
    | none => exact h
    | some pair =>
      obtain ⟨request, rest⟩ := pair
      dsimp only
      cases hout : coserverRequest (callback i c.turn) request with
      | none => exact h
      | some out =>
        refine h.set (getElem?_of_active hi) rfl ?_
        rintro ⟨done, waiting, unread, lost, part, hf⟩
        exact hf.work h.wellFormed_sentTo (fun r hr => (mem_sentTo.mp hr).2) (h.turns i) hread
          hout (hharm c hi)

/-! ## Sending -/

theorem mem_of_leastBusy_foldl {type : Nat} {coservers : List (Channel × Nat)}
    {start : Option (Channel × Nat)} {best : Channel × Nat}
    (h : coservers.foldl (fun coserver current =>
      if current.1.running && current.1.type == type then
        match coserver with
        | none => some current
        | some best => if current.1.busy ≤ best.1.busy then some current else coserver
      else coserver) start = some best) :
    start = some best ∨ best ∈ coservers := by
  induction coservers generalizing start with
  | nil => exact Or.inl h
  | cons current coservers ih =>
    rw [List.foldl_cons] at h
    rcases ih h with hstart | hmem
    · split at hstart
      · split at hstart
        · exact Or.inr (Option.some.inj hstart ▸ List.mem_cons_self)
        · split at hstart
          · exact Or.inr (Option.some.inj hstart ▸ List.mem_cons_self)
          · exact Or.inl hstart
      · exact Or.inl hstart
    · exact Or.inr (List.mem_cons_of_mem _ hmem)

theorem leastBusy_lt {coservers : List Channel} {type i : Nat}
    (h : leastBusy coservers type = some i) : i < coservers.length := by
  obtain ⟨best, hbest, rfl⟩ := Option.map_eq_some_iff.mp h
  rcases mem_of_leastBusy_foldl hbest with hnone | hmem
  · cases hnone
  · exact List.snd_lt_of_mem_zipIdx hmem

/-- No entry of an unanswered request is lost when the next id is free, or zero. -/
theorem update_callbacks {key key' : Text} {cb new : Callback α} {id id' : Nat}
    (hid : id < unsignedSize) (hid' : id' < unsignedSize) (hne : id' ≠ 0)
    (hfree : id = 0 ∨ s.callbacks (svzItoa id) = none) (hkey : key = svzItoa id)
    (hkey' : key' = svzItoa id') (h : s.callbacks key' = some cb) :
    Function.update s.callbacks key (some new) key' = some cb := by
  subst hkey hkey'
  refine (Function.update_of_ne ?_ _ _).trans h
  intro he
  rcases hfree with rfl | hnone
  · exact hne (svzItoa_injective hid' hid he)
  · rw [he, hnone] at h
    cases h

theorem printf_busy (c : Channel) (text : Text) (fails : Option Nat) :
    (printf c text fails).busy = c.busy := by
  unfold printf
  split
  · rfl
  · cases fails <;> rfl

theorem sentTo_self {t : State α} (ht : t.sent = s.sent ++ [r]) :
    sentTo t r.coserver = sentTo s r.coserver ++ [r] := by
  simp [sentTo, ht]

theorem sentTo_other {t : State α} (ht : t.sent = s.sent ++ [r]) {j : Nat} (hj : r.coserver ≠ j) :
    sentTo t j = sentTo s j := by
  simp [sentTo, ht, hj]

/-- The requests to one coserver get one more, those to the others stay. -/
theorem Good.send_channel (h : Good callback s) {t : State α} (ht : t.sent = s.sent ++ [r])
    (hwell : WellFormed r) (hcalled : r.callback.block ∉ called s) (hnew : r ∉ s.sent)
    {fails : Option Nat} {j : Nat} (hd : (s.coservers.modify r.coserver fun c =>
      printf { c with busy := c.busy + 1 } (line r.id r.text) fails)[j]? = some d) :
    d.busy = ((pending (called s) (sentTo t j)).length : Int) ∧
      Flows callback d (sentTo t j) (called s) := by
  rw [List.getElem?_modify] at hd
  obtain ⟨c, hc, rfl⟩ := Option.map_eq_some_iff.mp hd
  have hbusy := h.answers.busy j c hc
  by_cases hj : r.coserver = j
  · subst hj
    obtain ⟨done, waiting, unread, lost, part, hf⟩ := h.flow r.coserver c hc
    rw [if_pos rfl, sentTo_self ht, pending_append_new hcalled, printf_busy, hbusy,
      List.length_append, List.length_singleton]
    exact ⟨by simp, hf.send hwell hcalled (fun hmem => hnew (mem_sentTo.mp hmem).1) _ _⟩
  · rw [if_neg hj, sentTo_other ht hj]
    exact ⟨hbusy, h.flow j c hc⟩

/-- A request that is new in every respect is added. -/
theorem Good.send (h : Good callback s) (hwell : WellFormed r)
    (htarget : r.coserver < s.coservers.length) (hturn : r.turn = (sentTo s r.coserver).length)
    (hblock : r.callback.block = s.sent.length)
    (hfree : r.id = 0 ∨ s.callbacks (svzItoa r.id) = none) {next : Nat}
    (hnext : next < unsignedSize) (fails : Option Nat) :
    Good callback { s with
      callbackId := next
      callbacks := Function.update s.callbacks (svzItoa r.id) (some r.callback)
      coservers := s.coservers.modify r.coserver fun c =>
        printf { c with busy := c.busy + 1 } (line r.id r.text) fails
      sent := s.sent ++ [r] } := by
  have hcalled : r.callback.block ∉ called s := by
    intro hmem
    have := h.called_lt hmem
    omega
  have hnew : r ∉ s.sent := by
    intro hmem
    have := h.block_lt hmem
    omega
  constructor
  · refine ⟨h.answers.once, fun call hcall => ?_, fun j d hd =>
      (h.send_channel rfl hwell hcalled hnew hd).1⟩
    obtain ⟨q, hq, heq⟩ := h.answers.own call hcall
    exact ⟨q, List.mem_append_left _ hq, heq⟩
  · exact hnext
  · simp only [List.map_append, List.map_cons, List.map_nil, h.blocks, hblock,
      List.length_append, List.length_singleton, List.range_succ]
  · intro q hq
    rcases List.mem_append.mp hq with hq | hq
    · exact h.wellFormed q hq
    · exact List.mem_singleton.mp hq ▸ hwell
  · intro q hq
    rw [List.length_modify]
    rcases List.mem_append.mp hq with hq | hq
    · exact h.target q hq
    · exact List.mem_singleton.mp hq ▸ htarget
  · intro j
    by_cases hj : r.coserver = j
    · subst hj
      rw [sentTo_self rfl]
      simp only [List.map_append, List.map_cons, List.map_nil, h.turns, hturn,
        List.length_append, List.length_singleton, List.range_succ]
    · rw [sentTo_other rfl hj]
      exact h.turns j
  · intro q hq hne hpending
    rcases List.mem_append.mp hq with hq | hq
    · exact update_callbacks hwell.1 (h.wellFormed q hq).1 hne hfree rfl rfl
        (h.table q hq hne hpending)
    · obtain rfl := List.mem_singleton.mp hq
      exact Function.update_self _ _ _
  · intro key hkey
    obtain ⟨q, hq, hne, rfl, hcb, hcall⟩ := h.calling key hkey
    exact ⟨q, List.mem_append_left _ hq, hne, rfl,
      update_callbacks hwell.1 (h.wellFormed q hq).1 hne hfree rfl rfl hcb, hcall⟩
  · exact fun j d hd => (h.send_channel rfl hwell hcalled hnew hd).2

theorem send_good (h : Good callback s) {type : Nat} {request : Text} {closure : α}
    {fails : Option Nat} (hsend : Sendable s (.send type request closure fails))
    (hharm : Harmless callback s (.send type request closure fails)) :
    Good callback (sendRequest s type request closure fails) := by
  unfold sendRequest
  cases hi : leastBusy s.coservers type with
  | none => exact h
  | some i =>
    let r : Sent α := ⟨i, (sentTo s i).length, s.callbackId, request, ⟨s.sent.length, closure⟩⟩
    have hwell : WellFormed r := ⟨h.id, hsend.1, hsend.2⟩
    exact h.send hwell (leastBusy_lt hi) rfl rfl (hharm (by rw [hi]; rfl))
      (Nat.mod_lt _ (by decide)) fails

/-! ## Answering -/

theorem returned_good (h : Good callback s) : Good callback (returned s) := by
  unfold returned
  cases hkey : s.calling with
  | none => exact h
  | some key =>
    obtain ⟨r, hr, -, -, hcb, hcalled⟩ := h.calling key hkey
    refine ⟨⟨h.answers.once, h.answers.own, h.answers.busy⟩, h.id, h.blocks, h.wellFormed,
      h.target, h.turns, fun q hq hne hpending => ?_, (by simp), h.flow⟩
    have htable := h.table q hq hne hpending
    refine (Function.update_of_ne ?_ _ _).trans htable
    intro he
    rw [he, hcb] at htable
    exact hpending (Option.some.inj htable ▸ hcalled)

theorem called_concat {t : State α} {cb : Callback α} {result : Option Text}
    (ht : t.calls = s.calls ++ [(cb, result)]) : called t = called s ++ [cb.block] := by
  simp [called, ht]

/-- One request to one coserver is answered, no request to another one. -/
theorem Good.handle_channel (h : Good callback s) (hr : r ∈ s.sent)
    (hpending : r.callback.block ∉ called s) (hc : s.coservers[r.coserver]? = some c)
    {e : Channel} (hbusy : e.busy = c.busy - 1)
    (hflow : Flows callback e (sentTo s r.coserver) (called s ++ [r.callback.block])) {j : Nat}
    (hd : (s.coservers.set r.coserver e)[j]? = some d) :
    d.busy = ((pending (called s ++ [r.callback.block]) (sentTo s j)).length : Int) ∧
      Flows callback d (sentTo s j) (called s ++ [r.callback.block]) := by
  by_cases hj : r.coserver = j
  · subst hj
    obtain ⟨hlt, -⟩ := List.getElem?_eq_some_iff.mp hc
    rw [List.getElem?_set_self hlt, Option.some.injEq] at hd
    subst hd
    refine ⟨?_, hflow⟩
    have hone := pending_called (sentTo_blocks_nodup h _) (mem_sentTo.mpr ⟨hr, rfl⟩) hpending
    have hold := h.answers.busy _ c hc
    omega
  · rw [List.getElem?_set_ne hj] at hd
    have hne : ∀ q ∈ sentTo s j, q.callback.block ≠ r.callback.block := by
      intro q hq he
      obtain ⟨hqs, rfl⟩ := mem_sentTo.mp hq
      exact hj (List.inj_on_of_nodup_map h.blocks_nodup hqs hr he ▸ rfl)
    rw [pending_append_of_ne hne]
    refine ⟨h.answers.busy j d hd, (h.flow j d hd).congr_called fun q hq => ?_⟩
    simp [hne q hq]

theorem Good.handle (h : Good callback s) (hr : r ∈ s.sent) (hid : r.id ≠ 0)
    (hpending : r.callback.block ∉ called s) (hc : s.coservers[r.coserver]? = some c)
    {e : Channel} (hbusy : e.busy = c.busy - 1)
    (hflow : Flows callback e (sentTo s r.coserver) (called s ++ [r.callback.block])) :
    Good callback { s with
      coservers := s.coservers.set r.coserver e
      calls := s.calls ++ [(r.callback, answer callback r)]
      calling := some (svzItoa r.id) } := by
  have hchannel := fun j d hd => h.handle_channel hr hpending hc hbusy hflow (j := j) (d := d) hd
  constructor
  · refine ⟨?_, fun call hcall => ?_, fun j d hd => ?_⟩
    · rw [called_concat rfl, List.nodup_append]
      refine ⟨h.answers.once, List.nodup_singleton _, fun a ha b hb he => hpending ?_⟩
      rw [← List.mem_singleton.mp hb, ← he]
      exact ha
    · rcases List.mem_append.mp hcall with hcall | hcall
      · exact h.answers.own call hcall
      · exact ⟨r, hr, List.mem_singleton.mp hcall⟩
    · rw [called_concat rfl]
      exact (hchannel j d hd).1
  · exact h.id
  · exact h.blocks
  · exact h.wellFormed
  · intro q hq
    rw [List.length_set]
    exact h.target q hq
  · exact h.turns
  · intro q hq hne hq'
    rw [called_concat rfl] at hq'
    exact h.table q hq hne fun hmem => hq' (List.mem_append_left _ hmem)
  · intro key hkey
    obtain rfl := Option.some.inj hkey
    refine ⟨r, hr, hid, rfl, h.table r hr hid hpending, ?_⟩
    rw [called_concat rfl]
    exact List.mem_append_right _ (List.mem_singleton_self _)
  · intro j d hd
    rw [called_concat rfl]
    exact (hchannel j d hd).2

theorem checkRequest_good
    (hresult : ∀ i n text result, callback i n text = some result → packetBoundary ∉ result)
    (h : Good callback s) (i : Nat) : Good callback (checkRequest s i) := by
  unfold checkRequest
  split
  · exact h
  cases hi : active s i with
  | none => exact h
  | some c =>
    dsimp only
    cases hline : nextLine c.recvBuffer with
    | none => exact h
    | some pair =>
      obtain ⟨request, rest⟩ := pair
      have hc := getElem?_of_active hi
      obtain ⟨done, waiting, unread, lost, part, hf⟩ := h.flow i c hc
      obtain ⟨r, hr, hid, hpending, rfl, hflow⟩ := hf.handle h.wellFormed_sentTo
        (sentTo_blocks_nodup h i) hresult hline (c.busy - 1)
      obtain ⟨hsent, rfl⟩ := mem_sentTo.mp hr
      have hparse : parseResponse (response callback r) = some (r.id, answer callback r) := by
        rw [response, if_neg hid, parseResponse_line (h.wellFormed r hsent).1
          (boundary_notMem_result hresult r), answer]
      dsimp only
      rw [handleRequest, hparse]
      dsimp only
      rw [h.table r hsent hid hpending]
      exact h.handle hsent hid hpending hc rfl hflow

/-! ## Whole runs -/

theorem step_good
    (hresult : ∀ i n text result, callback i n text = some result → packetBoundary ∉ result)
    (h : Good callback s) {op : Op α} (hsend : Sendable s op) (hharm : Harmless callback s op) :
    Good callback (step callback s op) := by
  cases op with
  | start type => exact start_good h type
  | disconnect i => exact disconnect_good h i
  | send type request closure fails => exact send_good h hsend hharm
  | bigLoop i => exact bigLoop_good h i hharm
  | readSocket i n => exact readSocket_good h i n
  | checkRequest i => exact checkRequest_good hresult h i
  | returned => exact returned_good h

/-- In a run whose requests have no line break and fit the buffers, callbacks get their own
answers in every state, if no request takes an id under which a callback is waiting and every
response fits the buffer of `put_id`. -/
theorem run_answers (callback : Nat → Nat → Text → Option Text)
    (hresult : ∀ i n text result, callback i n text = some result → packetBoundary ∉ result)
    (ops : List (Op α))
    (hsend : ∀ pre op, pre ++ [op] <+: ops → Sendable (run callback initial pre) op)
    (hharm : ∀ pre op, pre ++ [op] <+: ops → Harmless callback (run callback initial pre) op) :
    ∀ pre, pre <+: ops → Answers callback (run callback initial pre) := by
  intro pre hpre
  have hgood := forall_prefix_of_step (step callback) (Good callback)
    (fun s op => Sendable s op ∧ Harmless callback s op) good_initial
    (fun _ _ _ h hc => step_good hresult h hc.1 hc.2)
    (fun pre op hop => ⟨hsend pre op hop, hharm pre op hop⟩) pre hpre
  exact hgood.answers

/-- A request is answered, in two chunks. -/
def oneRequest : List (Op Nat) :=
  [.start 0, .send 0 ['h', 'i'] 7 none, .bigLoop 0, .readSocket 0 3, .readSocket 0 9,
    .checkRequest 0, .returned]

def sayOk : Nat → Nat → Text → Option Text := fun _ _ _ => some ['o', 'k']

theorem run_answers_oneRequest :
    (run sayOk initial oneRequest).calls = [(⟨0, 7⟩, some ['o', 'k'])] ∧
      ∀ pre, pre <+: oneRequest → Answers sayOk (run sayOk initial pre) := by
  refine ⟨by decide +kernel, run_answers sayOk ?_ oneRequest ?_ ?_⟩
  · rintro i n text result ⟨⟩
    decide
  · refine forall_steps fun n op hop => ?_
    rcases n with _ | _ | _ | _ | _ | _ | _ | n <;> cases hop <;> trivial
  · refine forall_steps fun n op hop => ?_
    rcases n with _ | _ | _ | _ | _ | _ | _ | n <;> cases hop <;>
      first | trivial | exact fun _ => Or.inr rfl | skip
    rintro c ⟨⟩ next ⟨⟩ -
    decide

/-- The response to the first of two requests fills the buffer of `put_id`. -/
def longResult : Nat → Nat → Text → Option Text := fun _ turn _ =>
  some (if turn = 0 then List.replicate 253 'a' else ['b'])

def twoRequests : List (Op Nat) :=
  [.start 0, .send 0 ['x'] 7 none, .send 0 ['y'] 8 none, .bigLoop 0, .bigLoop 0,
    .readSocket 0 300, .checkRequest 0]

theorem not_answers_longResult :
    (∀ i n text result, longResult i n text = some result → packetBoundary ∉ result) ∧
    (∀ pre op, pre ++ [op] <+: twoRequests → Sendable (run longResult initial pre) op) ∧
    ¬ Answers longResult (run longResult initial twoRequests) := by
  refine ⟨?_, ?_, fun h => ?_⟩
  · rintro i n text result ⟨⟩
    split
    · rw [List.mem_replicate]
      decide
    · decide
  · refine forall_steps fun n op hop => ?_
    rcases n with _ | _ | _ | _ | _ | _ | _ | n <;> cases hop <;> trivial
  · have hcalls : (run longResult initial twoRequests).calls =
        [(⟨0, 7⟩, some (List.replicate 253 'a' ++ ['2', ':', 'b']))] := by decide +kernel
    have hsent : (run longResult initial twoRequests).sent =
        [⟨0, 0, 1, ['x'], ⟨0, 7⟩⟩, ⟨0, 1, 2, ['y'], ⟨1, 8⟩⟩] := by decide +kernel
    obtain ⟨r, hr, hcall⟩ := h.own _ (by rw [hcalls]; exact List.mem_singleton_self _)
    rw [hsent] at hr
    revert r
    decide +kernel

end Serveez.Coserver.Protocol
