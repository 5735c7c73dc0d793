import Serveez.Nut.SavePath

/-!
# The files of downloads

What the steps of downloads do to the files, as one of seven effects (`FileEffect`). A file is
created before the connection is made, and it is unlinked by the callback for the end of the
connection, which looks at the size and the flags only.

* `step_effect`: the effect of each step.
* `savedFiles_iff`: in all states of a run the files are the old ones, those received completely
  and those of the downloads that have created one, exactly if no step has one of the effects
  that leave a file behind or touch a file of others.
-/

set_option linter.unusedSectionVars false

namespace Serveez.Nut

open Lib

variable {ι : Type} [DecidableEq ι] {cfg : TransferConfig} {resolve : List UInt8 → ι}

/-- The file that the connection has created and writes to. -/
def NutConn.saves (resolve : List UInt8 → ι) (c : NutConn) : Option ι :=
  match c.stage with
  | .download transfer true _ _ _ _ => some (resolve transfer.file)
  | _ => none

def Transfers.saving (resolve : List UInt8 → ι) (s : Transfers ι) : List ι :=
  s.conns.filterMap (NutConn.saves resolve)

/-- The files are the old ones, those received completely and those being saved. No file that was
there has been opened, and none unlinked but by the connection that created it. -/
structure SavedFiles (resolve : List UInt8 → ι) (old : List ι) (s : Transfers ι) : Prop where
  files : ∀ n, n ∈ s.files ↔ n ∈ old ∨ n ∈ s.completed ∨ n ∈ s.saving resolve
  untouched : s.clobbered = []

/-- A file is created only with a connection. At the end of a connection that has not created its
file the file is not there, and nothing of a file is missing that is left. -/
def LeavesNothing (cfg : TransferConfig) (resolve : List UInt8 → ι) (s : Transfers ι) :
    TransferStep → Prop
  | .hit origin guid record opens connected =>
    (createdBy cfg resolve s (.hit origin guid record opens connected)).isSome →
      connected.isSome
  | .disconnect sock _ =>
    ∀ c, findKey NutConn.sock sock s.conns = some c →
      ∀ transfer opened dialed hdr announced written,
        c.stage = .download transfer opened dialed hdr announced written →
        (opened = false → resolve transfer.file ∉ s.files) ∧
        (hdr = true → transfer.size ≤ 0 → announced ≤ written)
  | _ => True

/-! ## Stages of downloads -/

/-- A connection without a file is closing. The size is what is left of the announced bytes, or
less. -/
def NutConn.Staged (c : NutConn) : Prop :=
  match c.stage with
  | .download transfer opened _ hdr announced written =>
    (opened = false → hdr = false ∧ c.closing = true) ∧ (hdr = false → written = 0) ∧
      (hdr = true → transfer.size + written ≤ announced)
  | _ => True

theorem staged_update {s : Transfers ι} (h : ∀ c ∈ s.conns, c.Staged) (sock : Nat)
    {f : NutConn → NutConn} (hf : ∀ c ∈ s.conns, (f c).Staged) :
    ∀ c ∈ (s.update sock f).conns, c.Staged := by
  intro c hc
  obtain ⟨before, hbefore, rfl⟩ := List.mem_map.mp hc
  split
  · exact hf before hbefore
  · exact h before hbefore

theorem NutConn.Staged.close {c : NutConn} (h : c.Staged) : c.close.Staged := by
  unfold NutConn.Staged NutConn.close at *
  split
  · next hstage =>
    dsimp only at hstage
    rw [hstage] at h
    exact ⟨fun hopened => ⟨(h.1 hopened).1, rfl⟩, h.2⟩
  · trivial

theorem staged_cons {conns : List NutConn} (h : ∀ c ∈ conns, c.Staged) {c : NutConn}
    (hc : c.Staged) : ∀ c' ∈ c :: conns, c'.Staged := by
  intro c' hc'
  rcases List.mem_cons.mp hc' with rfl | hc'
  · exact hc
  · exact h c' hc'

theorem staged_reads {s : Transfers ι} (h : ∀ c ∈ s.conns, c.Staged) {sock : Nat}
    {transfer : NutTransfer} {opened dialed hdr : Bool} {announced written : Nat}
    (hreads : s.reads sock = some (.download transfer opened dialed hdr announced written)) :
    opened = true ∧ (hdr = false → written = 0) ∧
      (hdr = true → transfer.size + written ≤ announced) := by
  obtain ⟨hopened, hrest⟩ := h _ (findKey_mem (reads_spec hreads)).1
  refine ⟨?_, hrest⟩
  by_contra hnot
  exact Bool.false_ne_true (hopened (eq_false_of_ne_true hnot)).2

theorem staged_step {s : Transfers ι} (h : ∀ c ∈ s.conns, c.Staged) (step : TransferStep) :
    ∀ c ∈ (transferStep cfg resolve s step).conns, c.Staged := by
  have hclose (s' : Transfers ι) (hs' : s'.conns = s.conns) (sock : Nat) :
      ∀ c ∈ (s'.update sock NutConn.close).conns, c.Staged :=
    staged_update (hs' ▸ h) sock (fun c hc => (h c (hs' ▸ hc)).close)
  have hremoved (sock : Nat) : ∀ c ∈ removeKey NutConn.sock sock s.conns, c.Staged :=
    fun c hc => h c (mem_removeKey.mp hc).1
  cases step with
  | hit origin guid record opens connected =>
    unfold transferStep nutInitTransfer
    dsimp only
    split_ifs
    · exact h
    · exact h
    · cases connected with
      | none => exact h
      | some sock => exact staged_cons h ⟨Bool.noConfusion, fun _ => rfl, Bool.noConfusion⟩
    · exact h
  | giving sock =>
    unfold transferStep
    dsimp only
    split
    · exact staged_cons h trivial
    · exact h
  | giv sock buffer opens =>
    unfold transferStep nutCheckGiven
    dsimp only
    split
    · split_ifs
      · split
        · exact hclose s rfl sock
        · split_ifs
          · refine staged_update h sock (fun c hc => ?_)
            exact ⟨fun _ => ⟨rfl, rfl⟩, fun _ => rfl, Bool.noConfusion⟩
          · refine staged_update h sock (fun c hc => ?_)
            exact ⟨Bool.noConfusion, fun _ => rfl, Bool.noConfusion⟩
      · exact h
    · exact h
  | header sock length =>
    unfold transferStep
    dsimp only
    split
    · next hreads =>
      obtain ⟨rfl, hzero, -⟩ := staged_reads h hreads
      split
      · exact hclose s rfl sock
      · next length =>
        have hsize : wrapInt (svzAtoi length) ≤ contentLength length := by
          rw [wrapInt_svzAtoi]
          exact wrapInt_le _
        generalize wrapInt (svzAtoi length) = size at hsize ⊢
        generalize contentLength length = announced at hsize ⊢
        rw [hzero rfl]
        refine staged_update h sock (fun c hc => ⟨Bool.noConfusion, Bool.noConfusion, ?_⟩)
        intro _
        show size + ((0 : Nat) : Int) ≤ announced
        omega
    · exact h
  | save sock written =>
    unfold transferStep
    dsimp only
    split
    · next transfer opened dialed announced before hreads =>
      obtain ⟨rfl, -, hsize⟩ := staged_reads h hreads
      refine staged_update h sock (fun c hc => ⟨Bool.noConfusion, Bool.noConfusion, ?_⟩)
      intro _
      have hbefore := hsize rfl
      show transfer.size - written + ((before + written : Nat) : Int) ≤ announced
      omega
    · exact h
  | timeout sock outcome =>
    unfold transferStep
    dsimp only
    split
    · exact hclose _ (nutSendPush_conns _ _ _) sock
    · exact h
  | uploading sock =>
    unfold transferStep
    dsimp only
    split
    · exact staged_cons h trivial
    · exact h
  | pushed sock =>
    unfold transferStep
    dsimp only
    split
    · exact staged_cons h trivial
    · exact h
  | get sock started =>
    unfold transferStep
    dsimp only
    split
    · split
      · exact staged_update h sock (fun _ _ => trivial)
      · exact hclose s rfl sock
    · exact h
  | read sock =>
    unfold transferStep
    dsimp only
    split
    · exact staged_update h sock (fun _ _ => trivial)
    · exact h
  | fail sock => exact hclose s rfl sock
  | disconnect sock outcome =>
    unfold transferStep
    dsimp only
    split
    · exact h
    · split
      · exact hremoved sock
      · rw [nutDisconnectDownload_conns]
        exact hremoved sock
      · split_ifs
        · exact hremoved sock
        · exact hremoved sock

/-! ## Effects -/

/-- What a step does to the files.
* `started`, `stranded`: a file is created, with a connection that saves it or without one.
* `aborted`, `received`, `abandoned`: the connection that saves the file ends; the file is unlinked,
  is complete, or is left though bytes are missing.
* `refused`: a connection ends that has not created its file, and unlinks it. -/
inductive FileEffect (ι : Type)
  | quiet
  | started (node : ι)
  | stranded (node : ι)
  | aborted (node : ι)
  | received (node : ι)
  | abandoned (node : ι)
  | refused (node : ι)

/-- The lists of the second state, and the files that are not saved any more or that are from then
on. -/
structure Changes (resolve : List UInt8 → ι) (s s' : Transfers ι)
    (files completed clobbered gone came : List ι) : Prop where
  files : s'.files = files
  completed : s'.completed = completed
  clobbered : s'.clobbered = clobbered
  saving : (gone ++ s'.saving resolve).Perm (came ++ s.saving resolve)

def FileEffect.From (resolve : List UInt8 → ι) (s s' : Transfers ι) : FileEffect ι → Prop
  | .quiet => Changes resolve s s' s.files s.completed s.clobbered [] []
  | .started node =>
    node ∉ s.files ∧ Changes resolve s s' (node :: s.files) s.completed s.clobbered [] [node]
  | .stranded node =>
    node ∉ s.files ∧ Changes resolve s s' (node :: s.files) s.completed s.clobbered [] []
  | .aborted node =>
    Changes resolve s s' (s.files.filter (· ≠ node)) s.completed s.clobbered [node] []
  | .received node => Changes resolve s s' s.files (node :: s.completed) s.clobbered [node] []
  | .abandoned node => Changes resolve s s' s.files s.completed s.clobbered [node] []
  | .refused node =>
    Changes resolve s s' (s.files.filter (· ≠ node)) s.completed
      (if node ∈ s.files then node :: s.clobbered else s.clobbered) [] []

/-- The effects that keep the files right. -/
def FileEffect.Clean (s : Transfers ι) : FileEffect ι → Prop
  | .stranded _ => False
  | .abandoned _ => False
  | .refused node => node ∉ s.files
  | _ => True

/-- No two connections save the same file, and none an old or a complete one. -/
structure SavedApart (resolve : List UInt8 → ι) (old : List ι) (s : Transfers ι) : Prop where
  apart : ∀ n ∈ s.saving resolve, n ∉ old ∧ n ∉ s.completed
  nodup : (s.saving resolve).Nodup

variable {old : List ι} {s s' : Transfers ι}

/-- A file that a connection ends to save. -/
theorem gone_apart (hapart : SavedApart resolve old s) {node : ι}
    (hsaving : ([node] ++ s'.saving resolve).Perm ([] ++ s.saving resolve)) :
    node ∈ s.saving resolve ∧ node ∉ s'.saving resolve ∧ (s'.saving resolve).Nodup ∧
      ∀ n, n ∈ s.saving resolve ↔ n = node ∨ n ∈ s'.saving resolve := by
  have hmem (n : ι) : n ∈ s.saving resolve ↔ n = node ∨ n ∈ s'.saving resolve := by
    rw [← List.nil_append (s.saving resolve), ← hsaving.mem_iff, List.singleton_append,
      List.mem_cons]
  have hnodup := hsaving.nodup_iff.mpr hapart.nodup
  rw [List.singleton_append, List.nodup_cons] at hnodup
  exact ⟨(hmem node).mpr (Or.inl rfl), hnodup.1, hnodup.2, hmem⟩

theorem effect_saved (hsaved : SavedFiles resolve old s) (hapart : SavedApart resolve old s)
    {effect : FileEffect ι} (heffect : effect.From resolve s s') :
    SavedFiles resolve old s' ↔ effect.Clean s := by
  cases effect with
  | quiet =>
    refine iff_of_true ⟨fun n => ?_, ?_⟩ trivial
    · have hmem := heffect.saving.mem_iff (a := n)
      rw [List.nil_append, List.nil_append] at hmem
      rw [heffect.files, heffect.completed, hsaved.files, hmem]
    · rw [heffect.clobbered, hsaved.untouched]
  | started node =>
    obtain ⟨-, hchanges⟩ := heffect
    refine iff_of_true ⟨fun n => ?_, ?_⟩ trivial
    · have hmem := hchanges.saving.mem_iff (a := n)
      rw [List.nil_append, List.singleton_append, List.mem_cons] at hmem
      rw [hchanges.files, hchanges.completed, List.mem_cons, hsaved.files, hmem]
      tauto
    · rw [hchanges.clobbered, hsaved.untouched]
  | stranded node =>
    obtain ⟨hnew, hchanges⟩ := heffect
    refine iff_of_false (fun hsaved' => hnew ?_) not_false
    have hmem := hchanges.saving.mem_iff (a := node)
    rw [List.nil_append, List.nil_append] at hmem
    have hnode := hsaved'.files node
    rw [hchanges.files, hchanges.completed, hmem] at hnode
    exact (hsaved.files node).mpr (hnode.mp List.mem_cons_self)
  | aborted node =>
    obtain ⟨hnode, hgone, -, hmem⟩ := gone_apart hapart heffect.saving
    obtain ⟨hold, hcompleted⟩ := hapart.apart node hnode
    refine iff_of_true ⟨fun n => ?_, ?_⟩ trivial
    · rw [heffect.files, heffect.completed, List.mem_filter, decide_eq_true_iff, hsaved.files,
        hmem]
      constructor
      · rintro ⟨hn | hn | hn | hn, hne⟩
        · exact Or.inl hn
        · exact Or.inr (Or.inl hn)
        · exact absurd hn hne
        · exact Or.inr (Or.inr hn)
      · rintro (hn | hn | hn)
        · exact ⟨Or.inl hn, fun hsame => hold (hsame ▸ hn)⟩
        · exact ⟨Or.inr (Or.inl hn), fun hsame => hcompleted (hsame ▸ hn)⟩
        · exact ⟨Or.inr (Or.inr (Or.inr hn)), fun hsame => hgone (hsame ▸ hn)⟩
    · rw [heffect.clobbered, hsaved.untouched]
  | received node =>
    obtain ⟨-, -, -, hmem⟩ := gone_apart hapart heffect.saving
    refine iff_of_true ⟨fun n => ?_, ?_⟩ trivial
    · rw [heffect.files, heffect.completed, hsaved.files, hmem, List.mem_cons]
      tauto
    · rw [heffect.clobbered, hsaved.untouched]
  | abandoned node =>
    obtain ⟨hnode, hgone, -, -⟩ := gone_apart hapart heffect.saving
    obtain ⟨hold, hcompleted⟩ := hapart.apart node hnode
    refine iff_of_false (fun hsaved' => ?_) not_false
    have hthere := (hsaved.files node).mpr (Or.inr (Or.inr hnode))
    rw [← heffect.files, hsaved'.files, heffect.completed] at hthere
    rcases hthere with hn | hn | hn
    · exact hold hn
    · exact hcompleted hn
    · exact hgone hn
  | refused node =>
    constructor
    · intro hsaved' hthere
      have huntouched := hsaved'.untouched
      rw [heffect.clobbered, if_pos hthere] at huntouched
      exact List.cons_ne_nil _ _ huntouched
    · intro hmissing
      refine ⟨fun n => ?_, ?_⟩
      · have hmem := heffect.saving.mem_iff (a := n)
        rw [List.nil_append, List.nil_append] at hmem
        rw [heffect.files, heffect.completed, hmem, ← hsaved.files, List.mem_filter,
          decide_eq_true_iff]
        exact and_iff_left_of_imp (fun hn hsame => hmissing (hsame ▸ hn))
      · rw [heffect.clobbered, if_neg hmissing, hsaved.untouched]

theorem effect_apart (hsaved : SavedFiles resolve old s) (hapart : SavedApart resolve old s)
    {effect : FileEffect ι} (heffect : effect.From resolve s s') :
    SavedApart resolve old s' := by
  have hsame {files completed clobbered : List ι}
      (hchanges : Changes resolve s s' files completed clobbered [] [])
      (hcompleted : completed = s.completed) : SavedApart resolve old s' := by
    have hsaving := hchanges.saving
    rw [List.nil_append, List.nil_append] at hsaving
    refine ⟨fun n hn => ?_, hsaving.nodup_iff.mpr hapart.nodup⟩
    rw [hchanges.completed, hcompleted]
    exact hapart.apart n (hsaving.mem_iff.mp hn)
  have hended {node : ι} {files clobbered : List ι}
      (hchanges : Changes resolve s s' files s.completed clobbered [node] []) :
      SavedApart resolve old s' := by
    obtain ⟨-, -, hnodup, hmem⟩ := gone_apart hapart hchanges.saving
    refine ⟨fun n hn => ?_, hnodup⟩
    rw [hchanges.completed]
    exact hapart.apart n ((hmem n).mpr (Or.inr hn))
  cases effect with
  | quiet => exact hsame heffect rfl
  | started node =>
    obtain ⟨hnew, hchanges⟩ := heffect
    have hsaving := hchanges.saving
    rw [List.nil_append, List.singleton_append] at hsaving
    rw [hsaved.files, not_or, not_or] at hnew
    refine ⟨fun n hn => ?_, hsaving.nodup_iff.mpr (List.nodup_cons.mpr ⟨hnew.2.2, hapart.nodup⟩)⟩
    rw [hchanges.completed]
    rcases List.mem_cons.mp (hsaving.mem_iff.mp hn) with rfl | hn
    · exact ⟨hnew.1, hnew.2.1⟩
    · exact hapart.apart n hn
  | stranded node => exact hsame heffect.2 rfl
  | aborted node => exact hended heffect
  | received node =>
    obtain ⟨-, hgone, hnodup, hmem⟩ := gone_apart hapart heffect.saving
    refine ⟨fun n hn => ?_, hnodup⟩
    obtain ⟨hold, hcompleted⟩ := hapart.apart n ((hmem n).mpr (Or.inr hn))
    rw [heffect.completed, List.mem_cons, not_or]
    exact ⟨hold, fun hsame => hgone (hsame ▸ hn), hcompleted⟩
  | abandoned node => exact hended heffect
  | refused node => exact hsame heffect rfl

/-! ## Effects of the steps -/

theorem nutSendPush_files (s : Transfers ι) (transfer : NutTransfer) (outcome : PushOutcome) :
    (nutSendPush s transfer outcome).files = s.files ∧
      (nutSendPush s transfer outcome).completed = s.completed ∧
      (nutSendPush s transfer outcome).clobbered = s.clobbered := by
  unfold nutSendPush
  dsimp only
  split_ifs <;> exact ⟨rfl, rfl, rfl⟩

variable (resolve) in
theorem nutDisconnectDownload_files (s : Transfers ι) (transfer : NutTransfer)
    (opened hdr : Bool) (announced written : Nat) (outcome : PushOutcome) :
    let node := resolve transfer.file
    let s' := nutDisconnectDownload resolve s transfer opened hdr announced written outcome
    s'.files =
        (if 0 < transfer.size ∨ hdr = false then s.files.filter (· ≠ node) else s.files) ∧
      s'.completed =
        (if hdr = true ∧ announced ≤ written then node :: s.completed else s.completed) ∧
      s'.clobbered =
        (if (0 < transfer.size ∨ hdr = false) ∧ node ∈ s.files ∧ opened = false then
          node :: s.clobbered else s.clobbered) := by
  intro node s'
  have hpush (s : Transfers ι) := nutSendPush_files s transfer outcome
  by_cases hunlinked : 0 < transfer.size ∨ hdr = false
  · by_cases hreceived : hdr = true ∧ announced ≤ written
    · simp only [s', nutDisconnectDownload, if_pos hreceived, unlinkFile,
        hunlinked, true_and]
      split
      · exact hpush _
      · exact ⟨rfl, rfl, rfl⟩
    · simp only [s', nutDisconnectDownload, if_neg hreceived, unlinkFile,
        hunlinked, true_and]
      split
      · exact hpush _
      · exact ⟨rfl, rfl, rfl⟩
  · by_cases hreceived : hdr = true ∧ announced ≤ written
    · simp only [s', nutDisconnectDownload, if_pos hreceived, hunlinked,
        false_and, if_false]
      split
      · exact hpush _
      · exact ⟨rfl, rfl, rfl⟩
    · simp only [s', nutDisconnectDownload, if_neg hreceived, hunlinked,
        false_and, if_false]
      split
      · exact hpush _
      · exact ⟨rfl, rfl, rfl⟩

section Saving

variable {sock : Nat} {c : NutConn}

/-- A change of a connection that keeps the file that it saves. -/
theorem saving_update (hkeyed : Keyed NutConn.sock s.conns)
    (hfind : findKey NutConn.sock sock s.conns = some c) (hconns : s'.conns = s.conns)
    {f : NutConn → NutConn} (hf : (f c).saves resolve = c.saves resolve) :
    (s'.update sock f).saving resolve = s.saving resolve := by
  obtain ⟨before, after, hsaving, hmodified, -⟩ :=
    filterMap_split (NutConn.saves resolve) hkeyed hfind
  unfold Transfers.saving Transfers.update
  dsimp only
  rw [hconns, hmodified, hf, hsaving]

theorem saving_close (hconns : s'.conns = s.conns) (sock : Nat) :
    (s'.update sock NutConn.close).saving resolve = s.saving resolve := by
  unfold Transfers.saving Transfers.update modifyKey
  dsimp only
  rw [hconns, List.filterMap_map]
  apply List.filterMap_congr
  intro c _
  rw [Function.comp_apply]
  split <;> rfl

/-- A connection without a file begins to save one. -/
theorem saving_started (hkeyed : Keyed NutConn.sock s.conns)
    (hfind : findKey NutConn.sock sock s.conns = some c) (hconns : s'.conns = s.conns)
    {f : NutConn → NutConn} {node : ι} (hc : c.saves resolve = none)
    (hf : (f c).saves resolve = some node) :
    ([] ++ (s'.update sock f).saving resolve).Perm ([node] ++ s.saving resolve) := by
  obtain ⟨before, after, hsaving, hmodified, -⟩ :=
    filterMap_split (NutConn.saves resolve) hkeyed hfind
  unfold Transfers.saving Transfers.update
  dsimp only
  rw [hconns, hmodified, hf, hsaving, hc]
  simp only [Option.toList_some, Option.toList_none, List.append_nil, List.nil_append,
    List.append_assoc, List.singleton_append]
  exact List.perm_middle

variable (resolve) in
/-- A connection ends. -/
theorem saving_removed (hkeyed : Keyed NutConn.sock s.conns)
    (hfind : findKey NutConn.sock sock s.conns = some c)
    (hconns : s'.conns = removeKey NutConn.sock sock s.conns) :
    ((c.saves resolve).toList ++ s'.saving resolve).Perm ([] ++ s.saving resolve) := by
  obtain ⟨before, after, hsaving, -, hremoved⟩ :=
    filterMap_split (NutConn.saves resolve) hkeyed hfind
  unfold Transfers.saving
  rw [hconns, hremoved, hsaving, List.nil_append, List.append_assoc]
  exact (List.perm_append_comm_assoc _ _ _).symm

end Saving

variable (resolve) in
theorem disconnect_effect {sock : Nat} {transfer : NutTransfer} {opened dialed hdr : Bool}
    {announced written : Nat} {closing : Bool} (hkeyed : Keyed NutConn.sock s.conns)
    (hfind : findKey NutConn.sock sock s.conns =
      some ⟨sock, .download transfer opened dialed hdr announced written, closing⟩)
    (hstaged : (NutConn.mk sock (.download transfer opened dialed hdr announced written)
      closing).Staged) (outcome : PushOutcome) :
    ∃ effect : FileEffect ι,
      effect.From resolve s
        (nutDisconnectDownload resolve { s with conns := removeKey NutConn.sock sock s.conns }
          transfer opened hdr announced written outcome) ∧
      ((opened = false → resolve transfer.file ∉ s.files) ∧
        (hdr = true → transfer.size ≤ 0 → announced ≤ written) ↔ effect.Clean s) := by
  obtain ⟨hrefused, -, hsize⟩ := hstaged
  obtain ⟨hfiles, hcompleted, hclobbered⟩ := nutDisconnectDownload_files resolve
    { s with conns := removeKey NutConn.sock sock s.conns } transfer opened hdr announced written
    outcome
  have hsaving := saving_removed resolve hkeyed hfind
    (nutDisconnectDownload_conns resolve { s with conns := removeKey NutConn.sock sock s.conns }
      transfer opened hdr announced written outcome)
  generalize nutDisconnectDownload resolve { s with conns := removeKey NutConn.sock sock s.conns }
    transfer opened hdr announced written outcome = s' at *
  cases opened with
  | false =>
    obtain ⟨rfl, -⟩ := hrefused rfl
    refine ⟨.refused (resolve transfer.file), ⟨?_, ?_, ?_, hsaving⟩, ?_⟩
    · rw [hfiles, if_pos (Or.inr rfl)]
    · rw [hcompleted, if_neg (fun hreceived => Bool.false_ne_true hreceived.1)]
    · simpa using hclobbered
    · exact ⟨fun hboth => hboth.1 rfl, fun hmissing => ⟨fun _ => hmissing, nofun⟩⟩
  | true =>
    have hkept : s'.clobbered = s.clobbered := by
      rw [hclobbered, if_neg (fun hall => Bool.false_ne_true hall.2.2.symm)]
    by_cases hunlinked : 0 < transfer.size ∨ hdr = false
    · have hpart : ¬ (hdr = true ∧ announced ≤ written) := by
        rintro ⟨hhdr, hall⟩
        have hleft := hsize hhdr
        rcases hunlinked with hmore | hnone
        · omega
        · exact Bool.false_ne_true (hnone.symm.trans hhdr)
      refine ⟨.aborted (resolve transfer.file), ⟨?_, ?_, hkept, hsaving⟩, iff_of_true ?_ trivial⟩
      · rw [hfiles, if_pos hunlinked]
      · rw [hcompleted, if_neg hpart]
      · refine ⟨nofun, fun hhdr hdone => ?_⟩
        rcases hunlinked with hmore | hnone
        · omega
        · exact absurd (hnone.symm.trans hhdr) Bool.false_ne_true
    · obtain ⟨hdone, hhdr⟩ := not_or.mp hunlinked
      have hhdr' := eq_true_of_ne_false hhdr
      by_cases hall : announced ≤ written
      · refine ⟨.received (resolve transfer.file), ⟨?_, ?_, hkept, hsaving⟩,
          iff_of_true ⟨nofun, fun _ _ => hall⟩ trivial⟩
        · rw [hfiles, if_neg hunlinked]
        · rw [hcompleted, if_pos ⟨hhdr', hall⟩]
      · refine ⟨.abandoned (resolve transfer.file), ⟨?_, ?_, hkept, hsaving⟩,
          iff_of_false (fun hboth => hall (hboth.2 hhdr' (Int.not_lt.mp hdone))) not_false⟩
        · rw [hfiles, if_neg hunlinked]
        · rw [hcompleted, if_neg (fun hreceived => hall hreceived.2)]

theorem quiet_effect (hfiles : s'.files = s.files ∧ s'.completed = s.completed ∧
      s'.clobbered = s.clobbered) (hsaving : s'.saving resolve = s.saving resolve) :
    FileEffect.quiet.From resolve s s' :=
  ⟨hfiles.1, hfiles.2.1, hfiles.2.2, by rw [hsaving]⟩

theorem hit_effect (origin : Nat) (guid : List UInt8) (record : NutRecord) (opens : Bool)
    (connected : Option Nat) :
    ∃ effect : FileEffect ι,
      effect.From resolve s
        (transferStep cfg resolve s (.hit origin guid record opens connected)) ∧
      (LeavesNothing cfg resolve s (.hit origin guid record opens connected) ↔
        effect.Clean s) := by
  unfold LeavesNothing createdBy transferStep nutInitTransfer
  dsimp only
  by_cases hcreates : connected.all s.fresh = true ∧
      startsDownload cfg resolve s record.file = true ∧ opens = true
  · obtain ⟨hfresh, hstarts, rfl⟩ := hcreates
    have hnew : resolve (savedAs cfg record.file) ∉ s.files := by
      have hdecided := of_decide_eq_true hstarts
      exact hdecided.2.2
    rw [if_pos hfresh, if_neg (by rw [hstarts]; exact Bool.false_ne_true.symm),
      if_neg Bool.false_ne_true.symm, if_pos ⟨hfresh, hstarts, rfl⟩]
    cases connected with
    | none =>
      refine ⟨.stranded (resolve (savedAs cfg record.file)), ⟨hnew, rfl, rfl, ?_, ?_⟩, ?_⟩
      · exact if_neg hnew
      · exact List.Perm.refl _
      · exact iff_of_false (fun hconnected => nomatch hconnected rfl) not_false
    | some sock =>
      refine ⟨.started (resolve (savedAs cfg record.file)), ⟨hnew, rfl, rfl, ?_, ?_⟩, ?_⟩
      · exact if_neg hnew
      · exact List.Perm.refl _
      · exact iff_of_true (fun _ => rfl) trivial
  · rw [if_neg hcreates]
    refine ⟨.quiet, ?_, iff_of_true nofun trivial⟩
    split_ifs with hfresh hstarts hopens
    · exact quiet_effect ⟨rfl, rfl, rfl⟩ rfl
    · exact quiet_effect ⟨rfl, rfl, rfl⟩ rfl
    · exact absurd ⟨hfresh, eq_true_of_ne_false hstarts, eq_true_of_ne_false hopens⟩ hcreates
    · exact quiet_effect ⟨rfl, rfl, rfl⟩ rfl

theorem checkGiven_effect {sock : Nat} (hkeyed : Keyed NutConn.sock s.conns)
    (hgiven : s.reads sock = some .given) (buffer : List UInt8) (opens : Bool) :
    ∃ effect : FileEffect ι,
      effect.From resolve s (nutCheckGiven resolve s sock buffer opens) ∧ effect.Clean s := by
  have hfind := reads_spec hgiven
  unfold nutCheckGiven
  split_ifs
  · split
    · exact ⟨.quiet, quiet_effect ⟨rfl, rfl, rfl⟩ (saving_close rfl sock), trivial⟩
    · next key transfer _ =>
      dsimp only
      split_ifs with hrefused
      · exact ⟨.quiet, quiet_effect ⟨rfl, rfl, rfl⟩ (saving_update hkeyed hfind rfl rfl), trivial⟩
      · obtain ⟨hnew, -⟩ := not_or.mp hrefused
        refine ⟨.started (resolve transfer.file), ⟨hnew, rfl, rfl, if_neg hnew, ?_⟩, trivial⟩
        exact saving_started hkeyed hfind rfl rfl rfl
  · exact ⟨.quiet, quiet_effect ⟨rfl, rfl, rfl⟩ rfl, trivial⟩

variable (cfg resolve) in
theorem step_effect (hkeyed : Keyed NutConn.sock s.conns) (hstaged : ∀ c ∈ s.conns, c.Staged)
    (step : TransferStep) :
    ∃ effect : FileEffect ι, effect.From resolve s (transferStep cfg resolve s step) ∧
      (LeavesNothing cfg resolve s step ↔ effect.Clean s) := by
  have hquiet {s' : Transfers ι} (hfiles : s'.files = s.files ∧ s'.completed = s.completed ∧
        s'.clobbered = s.clobbered) (hsaving : s'.saving resolve = s.saving resolve) :
      ∃ effect : FileEffect ι, effect.From resolve s s' ∧ (True ↔ effect.Clean s) :=
    ⟨.quiet, quiet_effect hfiles hsaving, Iff.rfl⟩
  have hkept : ∃ effect : FileEffect ι, effect.From resolve s s ∧ (True ↔ effect.Clean s) :=
    hquiet ⟨rfl, rfl, rfl⟩ rfl
  cases step with
  | hit origin guid record opens connected => exact hit_effect origin guid record opens connected
  | giving sock =>
    unfold transferStep
    dsimp only
    split
    · exact hquiet ⟨rfl, rfl, rfl⟩ rfl
    · exact hkept
  | giv sock buffer opens =>
    unfold transferStep
    dsimp only
    split
    · next hgiven =>
      obtain ⟨effect, heffect, hclean⟩ := checkGiven_effect hkeyed hgiven buffer opens
      exact ⟨effect, heffect, iff_of_true trivial hclean⟩
    · exact hkept
  | header sock length =>
    unfold transferStep
    dsimp only
    split
    · next hreads =>
      obtain ⟨rfl, -⟩ := staged_reads hstaged hreads
      split
      · exact hquiet ⟨rfl, rfl, rfl⟩ (saving_close rfl sock)
      · next length =>
        refine hquiet ⟨rfl, rfl, rfl⟩ (saving_update hkeyed (reads_spec hreads) rfl ?_)
        simp only [NutConn.saves]
    · exact hkept
  | save sock written =>
    unfold transferStep
    dsimp only
    split
    · next hreads =>
      obtain ⟨rfl, -⟩ := staged_reads hstaged hreads
      exact hquiet ⟨rfl, rfl, rfl⟩ (saving_update hkeyed (reads_spec hreads) rfl rfl)
    · exact hkept
  | timeout sock outcome =>
    unfold transferStep
    dsimp only
    split
    · exact hquiet (nutSendPush_files _ _ _) (saving_close (nutSendPush_conns _ _ _) sock)
    · exact hkept
  | uploading sock =>
    unfold transferStep
    dsimp only
    split
    · exact hquiet ⟨rfl, rfl, rfl⟩ rfl
    · exact hkept
  | pushed sock =>
    unfold transferStep
    dsimp only
    split
    · exact hquiet ⟨rfl, rfl, rfl⟩ rfl
    · exact hkept
  | get sock started =>
    unfold transferStep
    dsimp only
    split
    · next hreads =>
      split
      · exact hquiet ⟨rfl, rfl, rfl⟩ (saving_update hkeyed (reads_spec hreads) rfl rfl)
      · exact hquiet ⟨rfl, rfl, rfl⟩ (saving_close rfl sock)
    · exact hkept
  | read sock =>
    unfold transferStep
    dsimp only
    split
    · next hreads =>
      exact hquiet ⟨rfl, rfl, rfl⟩ (saving_update hkeyed (reads_spec hreads) rfl rfl)
    · exact hkept
  | fail sock => exact hquiet ⟨rfl, rfl, rfl⟩ (saving_close rfl sock)
  | disconnect sock outcome =>
    unfold transferStep LeavesNothing
    dsimp only
    cases hfind : findKey NutConn.sock sock s.conns with
    | none =>
      refine ⟨.quiet, quiet_effect ⟨rfl, rfl, rfl⟩ rfl, iff_of_true (fun _ hc => ?_) trivial⟩
      cases hc
    | some c =>
      have hremoved (hc : c.saves resolve = none) {s' : Transfers ι}
          (hconns : s'.conns = removeKey NutConn.sock sock s.conns) :
          (s'.saving resolve).Perm (s.saving resolve) := by
        have hperm := saving_removed resolve hkeyed hfind hconns
        rw [hc] at hperm
        exact hperm
      obtain ⟨hmem, hsock⟩ := findKey_mem hfind
      obtain ⟨sock', stage, closing⟩ := c
      obtain rfl : sock' = sock := hsock
      cases stage with
      | given =>
        refine ⟨.quiet, ⟨rfl, rfl, rfl, hremoved rfl rfl⟩, iff_of_true ?_ trivial⟩
        rintro c hc transfer opened dialed hdr announced written hstage
        obtain rfl := Option.some.inj hc
        cases hstage
      | download transfer opened dialed hdr announced written =>
        obtain ⟨effect, heffect, hclean⟩ :=
          disconnect_effect resolve hkeyed hfind (hstaged _ hmem) outcome
        refine ⟨effect, heffect, Iff.trans ⟨fun hall => ?_, ?_⟩ hclean⟩
        · exact hall _ rfl _ _ _ _ _ _ rfl
        · rintro hboth c hc transfer' opened' dialed' hdr' announced' written' hstage
          obtain rfl := Option.some.inj hc
          obtain ⟨rfl, rfl, rfl, rfl, rfl, rfl⟩ := Stage.download.inj hstage
          exact hboth
      | upload transfers reading =>
        refine ⟨.quiet, ?_, iff_of_true ?_ trivial⟩
        · dsimp only
          split_ifs
          · exact ⟨rfl, rfl, rfl, hremoved rfl rfl⟩
          · exact ⟨rfl, rfl, rfl, hremoved rfl rfl⟩
        · rintro c hc transfer opened dialed hdr announced written hstage
          obtain rfl := Option.some.inj hc
          cases hstage

/-! ## Runs -/

theorem savedFiles_iff (cfg : TransferConfig) (resolve : List UInt8 → ι) (files : List ι)
    (steps : List TransferStep) :
    (∀ pre, pre <+: steps → SavedFiles resolve files (transferRun cfg resolve files pre)) ↔
      ∀ pre step, pre ++ [step] <+: steps →
        LeavesNothing cfg resolve (transferRun cfg resolve files pre) step := by
  apply forall_prefix_iff_of_aux (transferStep cfg resolve)
    (fun s => (Keyed NutConn.sock s.conns ∧ ∀ c ∈ s.conns, c.Staged) ∧
      SavedApart resolve files s)
    (SavedFiles resolve files) (LeavesNothing cfg resolve)
  · exact ⟨⟨List.nodup_nil, List.forall_mem_nil _⟩, List.forall_mem_nil _, List.nodup_nil⟩
  · refine ⟨fun n => ?_, rfl⟩
    simp [startTransfers, Transfers.saving]
  · rintro pre step - ⟨⟨hkeyed, hstaged⟩, hapart⟩ hsaved hnext
    obtain ⟨effect, heffect, hclean⟩ := step_effect cfg resolve hkeyed hstaged step
    exact hclean.mpr ((effect_saved hsaved hapart heffect).mp hnext)
  · rintro pre step - ⟨⟨hkeyed, hstaged⟩, hapart⟩ hsaved hleaves
    obtain ⟨effect, heffect, hclean⟩ := step_effect cfg resolve hkeyed hstaged step
    refine ⟨⟨⟨transferStep_keyed cfg resolve hkeyed step, staged_step hstaged step⟩, ?_⟩, ?_⟩
    · exact effect_apart hsaved hapart heffect
    · exact (effect_saved hsaved hapart heffect).mpr (hclean.mp hleaves)

/-- The host of a query hit that cannot be connected. -/
theorem unconnected_stranded :
    ¬ ∀ (cfg : TransferConfig) (resolve : List UInt8 → List UInt8) (files : List (List UInt8))
      (steps : List TransferStep), ∀ pre, pre <+: steps →
        SavedFiles resolve files (transferRun cfg resolve files pre) := by
  intro hall
  let cfg : TransferConfig := ⟨[46], none, [[97]], 4, 4, 0⟩
  let steps : List TransferStep := [.hit 0 (List.replicate 16 0) ⟨1, 9, [97], 0⟩ true none]
  have hsaved := hall cfg id [] steps steps (List.prefix_refl _)
  have hstranded := (hsaved.files [46, 47, 97]).mp (by decide)
  revert hstranded
  decide

end Serveez.Nut
