import Serveez.Nut.Transfers

/-!
# The numbers of transfers

`cfg->dnloads` counts the connections whose end is handled by `nut_disconnect_transfer`, and
`cfg->uploads` is meant to count those handled by `nut_disconnect_upload`.

* `accounted_step`: which steps keep the numbers right and within their limits.
* `accounted_iff`: the same for all states of a run.
-/

set_option linter.unusedSectionVars false

namespace Serveez.Nut

open Lib

variable {ι : Type} [DecidableEq ι] {cfg : TransferConfig} {resolve : List UInt8 → ι}

def NutConn.isDownload (c : NutConn) : Bool :=
  match c.stage with
  | .download _ _ _ _ _ _ => true
  | _ => false

/-- An upload has been started. -/
def NutConn.isUpload (c : NutConn) : Bool :=
  match c.stage with
  | .upload transfers _ => 0 < transfers
  | _ => false

/-- The numbers are those of the connections with transfers, and within the limits. -/
structure Accounted (cfg : TransferConfig) (s : Transfers ι) : Prop where
  dnloads : s.dnloads = s.conns.countP NutConn.isDownload
  uploads : s.uploads = s.conns.countP NutConn.isUpload
  maxDnloads : s.dnloads ≤ cfg.maxDnloads
  maxUploads : s.uploads ≤ cfg.maxUploads

/-- A file given is taken only if there may be another download; an upload starts only on a
connection that has had none, and only if there may be another upload. -/
def WithinLimits (cfg : TransferConfig) (s : Transfers ι) : TransferStep → Prop
  | .giv sock buffer _ => s.reads sock = some .given → ([10, 10] : List UInt8) <:+: buffer →
      ((givenKey buffer).bind (fun key => findKey Prod.fst key s.push)).isSome →
      s.dnloads < cfg.maxDnloads
  | .get sock started => ∀ transfers, s.reads sock = some (.upload transfers false) →
      started = true → transfers = 0 ∧ s.uploads < cfg.maxUploads
  | _ => True

/-! ## Changes of one connection -/

variable {s : Transfers ι} {sock : Nat}

/-- A connection that keeps its kind keeps the account. -/
theorem countP_update (p : NutConn → Bool) {c : NutConn} {f : NutConn → NutConn}
    (hkeyed : Keyed NutConn.sock s.conns) (h : findKey NutConn.sock sock s.conns = some c) :
    ((s.update sock f).conns.countP p : Int) + (if p c then 1 else 0) =
      s.conns.countP p + (if p (f c) then 1 else 0) := by
  have hcount := countP_modifyKey (f := f) p hkeyed h
  unfold Transfers.update
  dsimp only
  split_ifs at hcount ⊢ <;> omega

theorem countP_close (p : NutConn → Bool) (hp : ∀ c : NutConn, p c.close = p c)
    (conns : List NutConn) (sock : Nat) :
    (modifyKey NutConn.sock sock NutConn.close conns).countP p = conns.countP p := by
  induction conns with
  | nil => rfl
  | cons c conns ih =>
    unfold modifyKey at ih ⊢
    rw [List.map_cons, List.countP_cons, List.countP_cons, ih]
    split
    · rw [hp]
    · rfl

theorem Accounted.close (h : Accounted cfg s) (sock : Nat) :
    Accounted cfg (s.update sock NutConn.close) where
  dnloads := h.dnloads.trans (congrArg _ (countP_close _ (fun _ => rfl) _ _).symm)
  uploads := h.uploads.trans (congrArg _ (countP_close _ (fun _ => rfl) _ _).symm)
  maxDnloads := h.maxDnloads
  maxUploads := h.maxUploads

/-- The numbers after a change of one connection, where `s'` has new numbers already. -/
theorem accounted_update {s s' : Transfers ι} {c : NutConn} {f : NutConn → NutConn}
    (hkeyed : Keyed NutConn.sock s.conns) (h : Accounted cfg s)
    (hfind : findKey NutConn.sock sock s.conns = some c) (hconns : s'.conns = s.conns) :
    Accounted cfg (s'.update sock f) ↔
      s'.dnloads + (if c.isDownload then 1 else 0) =
        s.dnloads + (if (f c).isDownload then 1 else 0) ∧
      s'.uploads + (if c.isUpload then 1 else 0) =
        s.uploads + (if (f c).isUpload then 1 else 0) ∧
      s'.dnloads ≤ cfg.maxDnloads ∧ s'.uploads ≤ cfg.maxUploads := by
  have hdown := countP_update (f := f) NutConn.isDownload (hconns ▸ hkeyed) (hconns ▸ hfind)
  have hup := countP_update (f := f) NutConn.isUpload (hconns ▸ hkeyed) (hconns ▸ hfind)
  rw [hconns, ← h.dnloads] at hdown
  rw [hconns, ← h.uploads] at hup
  constructor
  · rintro ⟨hdnloads, huploads, hmaxDnloads, hmaxUploads⟩
    refine ⟨?_, ?_, hmaxDnloads, hmaxUploads⟩
    · rw [← hdown, ← hdnloads]
      rfl
    · rw [← hup, ← huploads]
      rfl
  · rintro ⟨hdnloads, huploads, hmaxDnloads, hmaxUploads⟩
    refine ⟨?_, ?_, hmaxDnloads, hmaxUploads⟩
    · show s'.dnloads = _
      omega
    · show s'.uploads = _
      omega

/-- A connection that keeps its kind. -/
theorem Accounted.update {s s' : Transfers ι} {c : NutConn} {f : NutConn → NutConn}
    (h : Accounted cfg s) (hkeyed : Keyed NutConn.sock s.conns)
    (hfind : findKey NutConn.sock sock s.conns = some c) (hconns : s'.conns = s.conns)
    (hdnloads : s'.dnloads = s.dnloads) (huploads : s'.uploads = s.uploads)
    (hdownload : (f c).isDownload = c.isDownload) (hupload : (f c).isUpload = c.isUpload) :
    Accounted cfg (s'.update sock f) := by
  rw [accounted_update hkeyed h hfind hconns, hdnloads, huploads, hdownload, hupload]
  exact ⟨rfl, rfl, h.maxDnloads, h.maxUploads⟩

theorem Accounted.connect (h : Accounted cfg s) (sock : Nat) {stage : Stage}
    (hdownload : (NutConn.mk sock stage false).isDownload = false)
    (hupload : (NutConn.mk sock stage false).isUpload = false) :
    Accounted cfg (s.connect sock stage) where
  dnloads := by
    show s.dnloads = ((⟨sock, stage, false⟩ :: s.conns : List NutConn).countP _ : Nat)
    rw [List.countP_cons_of_neg (by rw [hdownload]; exact Bool.false_ne_true)]
    exact h.dnloads
  uploads := by
    show s.uploads = ((⟨sock, stage, false⟩ :: s.conns : List NutConn).countP _ : Nat)
    rw [List.countP_cons_of_neg (by rw [hupload]; exact Bool.false_ne_true)]
    exact h.uploads
  maxDnloads := h.maxDnloads
  maxUploads := h.maxUploads

theorem accounted_remove {s s' : Transfers ι} {c : NutConn} (hkeyed : Keyed NutConn.sock s.conns)
    (h : Accounted cfg s) (hfind : findKey NutConn.sock sock s.conns = some c)
    (hconns : s'.conns = removeKey NutConn.sock sock s.conns)
    (hdnloads : s'.dnloads + (if c.isDownload then 1 else 0) = s.dnloads)
    (huploads : s'.uploads + (if c.isUpload then 1 else 0) = s.uploads) :
    Accounted cfg s' := by
  have hdown := countP_removeKey NutConn.isDownload hkeyed hfind
  have hup := countP_removeKey NutConn.isUpload hkeyed hfind
  have hsameDown := h.dnloads
  have hsameUp := h.uploads
  have hmaxDnloads := h.maxDnloads
  have hmaxUploads := h.maxUploads
  rw [← hconns] at hdown hup
  constructor <;> split_ifs at hdown hup hdnloads huploads <;> omega

/-! ## Steps -/

@[simp] theorem nutSendPush_dnloads (s : Transfers ι) (transfer : NutTransfer)
    (outcome : PushOutcome) : (nutSendPush s transfer outcome).dnloads = s.dnloads := by
  unfold nutSendPush
  dsimp only
  split_ifs <;> rfl

@[simp] theorem nutSendPush_uploads (s : Transfers ι) (transfer : NutTransfer)
    (outcome : PushOutcome) : (nutSendPush s transfer outcome).uploads = s.uploads := by
  unfold nutSendPush
  dsimp only
  split_ifs <;> rfl

theorem Accounted.sendPush (h : Accounted cfg s) (transfer : NutTransfer) (outcome : PushOutcome) :
    Accounted cfg (nutSendPush s transfer outcome) := by
  constructor
  · rw [nutSendPush_dnloads, nutSendPush_conns]
    exact h.dnloads
  · rw [nutSendPush_uploads, nutSendPush_conns]
    exact h.uploads
  · rw [nutSendPush_dnloads]
    exact h.maxDnloads
  · rw [nutSendPush_uploads]
    exact h.maxUploads

variable (resolve) in
theorem nutDisconnectDownload_counts (s : Transfers ι) (transfer : NutTransfer)
    (opened hdr : Bool) (announced written : Nat) (outcome : PushOutcome) :
    (nutDisconnectDownload resolve s transfer opened hdr announced written outcome).dnloads =
        s.dnloads - 1 ∧
      (nutDisconnectDownload resolve s transfer opened hdr announced written outcome).uploads =
        s.uploads := by
  unfold nutDisconnectDownload
  dsimp only
  split_ifs <;> simp [unlinkFile]

/-- A download starts only below the limit. -/
theorem Accounted.hit (h : Accounted cfg s) (origin : Nat) (guid : List UInt8)
    (record : NutRecord) (opens : Bool) (connected : Option Nat) :
    Accounted cfg (nutInitTransfer cfg resolve s origin guid record opens connected) := by
  unfold nutInitTransfer
  split_ifs with hstarts hopens
  · exact h
  · exact h
  have hbelow : s.dnloads < cfg.maxDnloads := by
    have hdecided := of_decide_eq_true (eq_true_of_ne_false hstarts)
    exact hdecided.1
  cases connected with
  | none => exact ⟨h.dnloads, h.uploads, h.maxDnloads, h.maxUploads⟩
  | some sock =>
    refine ⟨?_, ?_, ?_, h.maxUploads⟩
    · show s.dnloads + 1 = (List.countP _ (_ :: s.conns) : Nat)
      rw [List.countP_cons_of_pos rfl, h.dnloads]
      rfl
    · show s.uploads = (List.countP _ (_ :: s.conns) : Nat)
      rw [List.countP_cons_of_neg Bool.false_ne_true]
      exact h.uploads
    · show s.dnloads + 1 ≤ cfg.maxDnloads
      omega

/-- A file given is one more download, whether it can be created or not. -/
theorem accounted_checkGiven (hkeyed : Keyed NutConn.sock s.conns) (h : Accounted cfg s)
    (hgiven : s.reads sock = some .given) (buffer : List UInt8) (opens : Bool) :
    Accounted cfg (nutCheckGiven resolve s sock buffer opens) ↔
      (([10, 10] : List UInt8) <:+: buffer →
        ((givenKey buffer).bind (fun key => findKey Prod.fst key s.push)).isSome →
        s.dnloads < cfg.maxDnloads) := by
  have hfind := reads_spec hgiven
  have hmaxUploads := h.maxUploads
  unfold nutCheckGiven
  split_ifs with hline
  · cases (givenKey buffer).bind (fun key => findKey Prod.fst key s.push) with
    | none => exact iff_of_true (h.close sock) (fun _ hsome => absurd hsome Bool.false_ne_true)
    | some entry =>
      obtain ⟨key, transfer⟩ := entry
      dsimp only
      rw [← Int.add_one_le_iff (a := s.dnloads)]
      split_ifs with hrefused
      · refine (accounted_update hkeyed h hfind ?_).trans ?_
        · rfl
        simp [NutConn.isDownload, NutConn.isUpload, hline, hmaxUploads]
      · refine (accounted_update hkeyed h hfind ?_).trans ?_
        · rfl
        simp [NutConn.isDownload, NutConn.isUpload, hline, hmaxUploads, createFile]
  · exact ⟨fun _ hinfix => absurd hinfix hline, fun _ => h⟩

theorem accounted_disconnect (hkeyed : Keyed NutConn.sock s.conns) (h : Accounted cfg s)
    (sock : Nat) (outcome : PushOutcome) :
    Accounted cfg (transferStep cfg resolve s (.disconnect sock outcome)) := by
  unfold transferStep
  dsimp only
  split
  · exact h
  · next c hfind =>
    obtain ⟨sock', stage, closing⟩ := c
    cases stage with
    | given =>
      apply accounted_remove hkeyed h hfind rfl
      · exact Int.add_zero _
      · exact Int.add_zero _
    | download transfer opened dialed hdr announced written =>
      obtain ⟨hdnloads, huploads⟩ := nutDisconnectDownload_counts resolve
        { s with conns := removeKey NutConn.sock sock s.conns } transfer opened hdr announced
        written outcome
      apply accounted_remove hkeyed h hfind (nutDisconnectDownload_conns _ _ _ _ _ _ _ _)
      · rw [hdnloads]
        exact Int.sub_add_cancel _ _
      · rw [huploads]
        exact Int.add_zero _
    | upload transfers reading =>
      by_cases hstarted : 0 < transfers
      · dsimp only
        rw [if_pos hstarted]
        apply accounted_remove hkeyed h hfind rfl
        · exact Int.add_zero _
        · simp [NutConn.isUpload, hstarted]
      · dsimp only
        rw [if_neg hstarted]
        apply accounted_remove hkeyed h hfind rfl
        · exact Int.add_zero _
        · simp [NutConn.isUpload, hstarted]

theorem accounted_step (hkeyed : Keyed NutConn.sock s.conns) (h : Accounted cfg s)
    (step : TransferStep) :
    Accounted cfg (transferStep cfg resolve s step) ↔ WithinLimits cfg s step := by
  have hmaxDnloads := h.maxDnloads
  have hmaxUploads := h.maxUploads
  have hkeep {s' : Transfers ι} (hs' : Accounted cfg s') : Accounted cfg s' ↔ True :=
    iff_true_intro hs'
  cases step with
  | hit origin guid record opens connected =>
    apply hkeep
    unfold transferStep
    dsimp only
    split
    · exact h.hit origin guid record opens connected
    · exact h
  | giving sock =>
    apply hkeep
    unfold transferStep
    dsimp only
    split
    · exact h.connect sock rfl rfl
    · exact h
  | giv sock buffer opens =>
    unfold transferStep WithinLimits
    dsimp only
    split
    · next hgiven =>
      rw [accounted_checkGiven hkeyed h hgiven]
      exact ⟨fun hlimit _ => hlimit, fun hlimit => hlimit hgiven⟩
    · next hother => exact ⟨fun _ hgiven => absurd hgiven hother, fun _ => h⟩
  | header sock length =>
    apply hkeep
    unfold transferStep
    dsimp only
    split
    · next hreads =>
      split
      · exact h.close sock
      · apply h.update hkeyed (reads_spec hreads)
        · rfl
        · rfl
        · rfl
        · simp only [NutConn.isDownload]
        · simp only [NutConn.isUpload]

    · exact h
  | save sock written =>
    apply hkeep
    unfold transferStep
    dsimp only
    split
    · next hreads =>
      apply h.update hkeyed (reads_spec hreads)
      all_goals rfl
    · exact h
  | timeout sock outcome =>
    apply hkeep
    unfold transferStep
    dsimp only
    split
    · exact (h.sendPush _ outcome).close sock
    · exact h
  | uploading sock =>
    apply hkeep
    unfold transferStep
    dsimp only
    split
    · exact h.connect sock rfl rfl
    · exact h
  | pushed sock =>
    apply hkeep
    unfold transferStep
    dsimp only
    split
    · exact h.connect sock rfl rfl
    · exact h
  | get sock started =>
    unfold transferStep WithinLimits
    dsimp only
    split
    · next transfers hreads =>
      rw [hreads]
      split_ifs with hstarted
      · refine (accounted_update hkeyed h (reads_spec hreads) ?_).trans ?_
        · rfl
        constructor
        · rintro ⟨-, hcount, -, hlimit⟩ transfers' hsame -
          obtain ⟨rfl, -⟩ := Stage.upload.inj (Option.some.inj hsame)
          refine ⟨?_, hlimit⟩
          -- a connection with an upload before was counted already
          by_contra hlater
          have hstarted' : decide (0 < transfers) = true := decide_eq_true (by omega)
          have hafter : decide (0 < transfers + 1) = true := decide_eq_true (Nat.succ_pos transfers)
          simp only [NutConn.isUpload, hstarted', hafter, if_true] at hcount
          omega
        · intro hlimits
          obtain ⟨rfl, hlimit⟩ := hlimits transfers rfl hstarted
          refine ⟨rfl, ?_, hmaxDnloads, hlimit⟩
          simp [NutConn.isUpload]
      · exact ⟨fun _ _ _ hstart => absurd hstart hstarted, fun _ => h.close sock⟩
    · next hother => exact ⟨fun _ transfers hreads => absurd hreads (hother transfers), fun _ => h⟩
  | read sock =>
    apply hkeep
    unfold transferStep
    dsimp only
    split
    · next hreads =>
      apply h.update hkeyed (reads_spec hreads)
      all_goals rfl
    · exact h
  | fail sock =>
    apply hkeep
    exact h.close sock
  | disconnect sock outcome =>
    apply hkeep
    exact accounted_disconnect hkeyed h sock outcome

/-! ## Runs -/

/-- The numbers are right, not negative and within the limits in all states of a run, exactly if
the limits are not negative and every file given and every `GET` line of the run keeps to them. -/
theorem accounted_iff (cfg : TransferConfig) (resolve : List UInt8 → ι) (files : List ι)
    (steps : List TransferStep) :
    (∀ pre, pre <+: steps → Accounted cfg (transferRun cfg resolve files pre) ∧
        0 ≤ (transferRun cfg resolve files pre).dnloads ∧
        0 ≤ (transferRun cfg resolve files pre).uploads) ↔
      0 ≤ cfg.maxDnloads ∧ 0 ≤ cfg.maxUploads ∧
        ∀ pre step, pre ++ [step] <+: steps →
          WithinLimits cfg (transferRun cfg resolve files pre) step := by
  have hpositive {s : Transfers ι} (h : Accounted cfg s) : 0 ≤ s.dnloads ∧ 0 ≤ s.uploads := by
    rw [h.dnloads, h.uploads]
    exact ⟨Int.natCast_nonneg _, Int.natCast_nonneg _⟩
  have hrun (hstart : Accounted cfg (startTransfers files)) :
      (∀ pre, pre <+: steps → Accounted cfg (transferRun cfg resolve files pre)) ↔
        ∀ pre step, pre ++ [step] <+: steps →
          WithinLimits cfg (transferRun cfg resolve files pre) step := by
    apply forall_prefix_iff_of_aux (transferStep cfg resolve)
      (fun s => Keyed NutConn.sock s.conns) (Accounted cfg) (WithinLimits cfg)
    · exact List.nodup_nil
    · exact hstart
    · exact fun pre step _ hkeyed h hnext => (accounted_step hkeyed h step).mp hnext
    · exact fun pre step _ hkeyed h hlimits =>
        ⟨transferStep_keyed cfg resolve hkeyed step, (accounted_step hkeyed h step).mpr hlimits⟩
  constructor
  · intro hall
    have hstart : Accounted cfg (startTransfers files) := (hall [] List.nil_prefix).1
    exact ⟨hstart.maxDnloads, hstart.maxUploads,
      (hrun hstart).mp (fun pre hpre => (hall pre hpre).1)⟩
  · rintro ⟨hmaxDnloads, hmaxUploads, hlimits⟩ pre hpre
    have haccounted := (hrun ⟨rfl, rfl, hmaxDnloads, hmaxUploads⟩).mpr hlimits pre hpre
    exact ⟨haccounted, hpositive haccounted⟩

/-- Two uploads on one connection, one after the other. -/
def twoGets : List TransferStep := [.uploading 0, .get 0 true, .read 0, .get 0 true]

theorem twoGets_not_accounted :
    ¬ ∀ (cfg : TransferConfig) (resolve : List UInt8 → Nat) (files : List Nat)
      (steps : List TransferStep), 0 ≤ cfg.maxDnloads → 0 ≤ cfg.maxUploads →
      ∀ pre, pre <+: steps → Accounted cfg (transferRun cfg resolve files pre) := by
  intro hall
  have h := hall ⟨[46], none, [], 4, 4, 0⟩ List.length [] twoGets (by decide) (by decide) twoGets
    (List.prefix_refl _)
  have huploads := h.uploads
  revert huploads
  decide

end Serveez.Nut
