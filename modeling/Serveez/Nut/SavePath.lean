import Serveez.Nut.Transfers

/-!
# Paths of downloads

The paths that downloads create, write and unlink. A path comes into being in
`nut_init_transfer`, from the name in a record of a query hit. All later steps take it from there,
also by way of a push request. Of the checks on the way none looks for a slash: the name of a
record is printable (`nut_canonize_file`), has one of the extensions and matches one of the search
patterns.

* `Known.step`: the paths of a step are those before it and the one that it creates.
* `paths_confined_iff`: all paths stay in the download directory, exactly if the names of the
  files created are single components.
* `parentName_leaves`: a record with a slash in its name.
-/

set_option linter.unusedSectionVars false

namespace Serveez.Nut

open Lib

variable {ι : Type} [DecidableEq ι] {cfg : TransferConfig} {resolve : List UInt8 → ι}

/-- One component of a path, and not the parent directory. -/
structure Component (name : List UInt8) : Prop where
  nonempty : name ≠ []
  slash : 47 ∉ name
  parent : name ≠ [46, 46]

/-- The path is the download path, a slash and a component. -/
def InSavePath (cfg : TransferConfig) (path : List UInt8) : Prop :=
  ∃ name, path = savedAs cfg name ∧ Component name

/-- The name of the file that a step creates in the download path. -/
def createdBy (cfg : TransferConfig) (resolve : List UInt8 → ι) (s : Transfers ι) :
    TransferStep → Option (List UInt8)
  | .hit _ _ record opens connected =>
    if connected.all s.fresh ∧ startsDownload cfg resolve s record.file ∧ opens then
      some record.file
    else none
  | _ => none

def NutConn.transfer (c : NutConn) : Option NutTransfer :=
  match c.stage with
  | .download transfer _ _ _ _ _ => some transfer
  | _ => none

/-- The files of all downloads and push requests are known. -/
structure Known (s : Transfers ι) : Prop where
  conns : ∀ c ∈ s.conns, ∀ transfer, c.transfer = some transfer → transfer.file ∈ s.touched
  push : ∀ entry ∈ s.push, entry.2.file ∈ s.touched

/-! ## Changes -/

theorem Known.mono {s s' : Transfers ι} (h : Known s) (hconns : ∀ c ∈ s'.conns, c ∈ s.conns)
    (hpush : ∀ entry ∈ s'.push, entry ∈ s.push) (htouched : s.touched ⊆ s'.touched) :
    Known s' where
  conns c hc transfer htransfer := htouched (h.conns c (hconns c hc) transfer htransfer)
  push entry hentry := htouched (h.push entry (hpush entry hentry))

variable {s : Transfers ι}

theorem Known.update (h : Known s) (sock : Nat) (f : NutConn → NutConn)
    (hf : ∀ c ∈ s.conns, c.sock = sock → ∀ transfer, (f c).transfer = some transfer →
      transfer.file ∈ s.touched) : Known (s.update sock f) where
  conns c hc transfer htransfer := by
    obtain ⟨before, hbefore, rfl⟩ := List.mem_map.mp hc
    split at htransfer
    · next hsock => exact hf before hbefore hsock transfer htransfer
    · exact h.conns before hbefore transfer htransfer
  push := h.push

theorem Known.connect (h : Known s) (sock : Nat) {stage : Stage}
    (hstage : ∀ transfer, (NutConn.mk sock stage false).transfer = some transfer →
      transfer.file ∈ s.touched) : Known (s.connect sock stage) where
  conns c hc transfer htransfer := by
    rcases List.mem_cons.mp hc with rfl | hc
    · exact hstage transfer htransfer
    · exact h.conns c hc transfer htransfer
  push := h.push

theorem Known.close (h : Known s) (sock : Nat) :
    Known (s.update sock NutConn.close) :=
  h.update sock NutConn.close (fun c hc _ transfer htransfer => h.conns c hc transfer htransfer)

@[simp] theorem nutSendPush_touched (s : Transfers ι) (transfer : NutTransfer)
    (outcome : PushOutcome) : (nutSendPush s transfer outcome).touched = s.touched := by
  unfold nutSendPush
  dsimp only
  split_ifs <;> rfl

theorem Known.sendPush (h : Known s) {transfer : NutTransfer} (hfile : transfer.file ∈ s.touched)
    (outcome : PushOutcome) :
    Known (nutSendPush s transfer outcome) where
  conns c hc := by
    rw [nutSendPush_conns] at hc
    rw [nutSendPush_touched]
    exact h.conns c hc
  push := by
    unfold nutSendPush
    dsimp only
    split_ifs
    · exact h.push
    · exact h.push
    · exact h.push
    · intro entry hentry
      rcases List.mem_cons.mp hentry with rfl | hentry
      · exact hfile
      · exact h.push entry hentry

theorem Known.reads (h : Known s) {sock : Nat} {transfer : NutTransfer} {opened dialed hdr : Bool}
    {announced written : Nat}
    (hreads : s.reads sock = some (.download transfer opened dialed hdr announced written)) :
    transfer.file ∈ s.touched :=
  h.conns _ (findKey_mem (reads_spec hreads)).1 transfer rfl

/-! ## Steps -/

/-- The files are known after a step, and its paths are those before and the one created. -/
structure Touches (s s' : Transfers ι) (created : Option (List UInt8)) : Prop where
  known : Known s'
  touched : ∀ path, path ∈ s'.touched ↔ path ∈ s.touched ∨ created = some path

/-- Only paths from before. -/
theorem Touches.none {s s' : Transfers ι} (hknown : Known s') (htouched : s'.touched = s.touched) :
    Touches s s' none :=
  ⟨hknown, fun path => by rw [htouched]; exact (or_iff_left (nomatch ·)).symm⟩

theorem Touches.since {s before s' : Transfers ι} {created : Option (List UInt8)}
    (h : Touches before s' created) (hsame : before.touched = s.touched) :
    Touches s s' created :=
  ⟨h.known, fun path => hsame ▸ h.touched path⟩

theorem Touches.again {s s' : Transfers ι} {file : List UInt8} (hknown : Known s')
    (hfile : file ∈ s.touched) (htouched : s'.touched = file :: s.touched) :
    Touches s s' Option.none := by
  refine ⟨hknown, fun path => ?_⟩
  rw [htouched, List.mem_cons]
  constructor
  · rintro (rfl | hpath)
    · exact Or.inl hfile
    · exact Or.inl hpath
  · rintro (hpath | hcreated)
    · exact Or.inr hpath
    · exact nomatch hcreated

variable (cfg resolve) in
theorem Known.hit (h : Known s) (origin : Nat) (guid : List UInt8) (record : NutRecord)
    (opens : Bool) (connected : Option Nat) :
    Touches s (nutInitTransfer cfg resolve s origin guid record opens connected)
      (if startsDownload cfg resolve s record.file ∧ opens then some (savedAs cfg record.file)
        else none) := by
  unfold nutInitTransfer
  by_cases hstarts : startsDownload cfg resolve s record.file = false
  · rw [if_pos hstarts, if_neg (fun hmay => Bool.false_ne_true (hstarts.symm.trans hmay.1))]
    exact Touches.none h rfl
  by_cases hopens : opens = false
  · rw [if_neg hstarts, if_pos hopens,
      if_neg (fun hmay => Bool.false_ne_true (hopens.symm.trans hmay.2))]
    exact Touches.none h rfl
  rw [if_neg hstarts, if_neg hopens,
    if_pos ⟨eq_true_of_ne_false hstarts, eq_true_of_ne_false hopens⟩]
  have hcreated : Known (createFile resolve s (savedAs cfg record.file)) :=
    h.mono (fun _ hc => hc) (fun _ he => he) (List.subset_cons_self _ _)
  have hpaths : ∀ path, path ∈ savedAs cfg record.file :: s.touched ↔
      path ∈ s.touched ∨ some (savedAs cfg record.file) = some path := by
    intro path
    rw [List.mem_cons, or_comm, eq_comm, Option.some.injEq]
  cases connected with
  | none => exact ⟨hcreated, hpaths⟩
  | some sock =>
    refine ⟨⟨fun c hc transfer htransfer => ?_, hcreated.push⟩, hpaths⟩
    rcases List.mem_cons.mp hc with rfl | hc
    · obtain rfl := Option.some.inj htransfer
      exact List.mem_cons_self
    · exact hcreated.conns c hc transfer htransfer

theorem Known.checkGiven (h : Known s) (sock : Nat) (buffer : List UInt8) (opens : Bool) :
    Touches s (nutCheckGiven resolve s sock buffer opens) none := by
  unfold nutCheckGiven
  split_ifs with hline
  · cases hfind : (givenKey buffer).bind (fun key => findKey Prod.fst key s.push) with
    | none => exact Touches.none (h.close sock) rfl
    | some entry =>
      obtain ⟨key, transfer⟩ := entry
      -- the path of the push request comes from a download before
      have hfile : transfer.file ∈ s.touched := by
        obtain ⟨key', -, hkey'⟩ := Option.bind_eq_some_iff.mp hfind
        exact h.push _ (findKey_mem hkey').1
      dsimp only
      split_ifs
      · refine Touches.none (Known.update ?_ sock _ ?_) rfl
        · exact h.mono (fun _ hc => hc) (fun _ he => (mem_removeKey.mp he).1) (List.Subset.refl _)
        · rintro c - - transfer' htransfer'
          obtain rfl := Option.some.inj htransfer'
          exact hfile
      · refine Touches.again (Known.update ?_ sock _ ?_) hfile rfl
        · exact h.mono (fun _ hc => hc) (fun _ he => (mem_removeKey.mp he).1)
            (List.subset_cons_self _ _)
        · rintro c - - transfer' htransfer'
          obtain rfl := Option.some.inj htransfer'
          exact List.mem_cons_self
  · exact Touches.none h rfl

theorem Known.disconnectDownload (h : Known s) {transfer : NutTransfer}
    (hfile : transfer.file ∈ s.touched) (opened hdr : Bool) (announced written : Nat)
    (outcome : PushOutcome) :
    Touches s
      (nutDisconnectDownload resolve s transfer opened hdr announced written outcome) none := by
  unfold nutDisconnectDownload
  extract_lets counted unlinked received
  have hcounted : Known counted :=
    h.mono (fun _ hc => hc) (fun _ he => he) (List.Subset.refl _)
  have hunlinked : Touches s unlinked none := by
    show Touches s (if _ then _ else _) none
    split
    · refine Touches.again ?_ hfile rfl
      exact h.mono (fun _ hc => hc) (fun _ he => he) (List.subset_cons_self _ _)
    · exact Touches.none hcounted rfl
  have hreceived : Touches s received none := by
    show Touches s (if _ then _ else _) none
    split
    · exact ⟨hunlinked.known.mono (fun _ hc => hc) (fun _ he => he) (List.Subset.refl _),
        hunlinked.touched⟩
    · exact hunlinked
  split
  · refine ⟨hreceived.known.sendPush ?_ outcome, fun path => ?_⟩
    · exact (hreceived.touched _).mpr (Or.inl hfile)
    · rw [nutSendPush_touched]
      exact hreceived.touched path
  · exact hreceived

variable (cfg resolve) in
theorem Known.step (h : Known s) (step : TransferStep) :
    Touches s (transferStep cfg resolve s step)
      ((createdBy cfg resolve s step).map (savedAs cfg)) := by
  have hkept : Touches s s none := Touches.none h rfl
  have hempty {transfer : NutTransfer} {P : Prop} (htransfer : none = some transfer) : P :=
    absurd htransfer (Option.some_ne_none _).symm
  cases step with
  | hit origin guid record opens connected =>
    unfold transferStep createdBy
    dsimp only
    split
    · next hfresh =>
      have hhit := h.hit cfg resolve origin guid record opens connected
      rw [apply_ite (Option.map (savedAs cfg))]
      simpa only [hfresh, true_and, Option.map_some, Option.map_none] using hhit
    · next hfresh =>
      rw [if_neg (fun hmay => hfresh hmay.1)]
      exact hkept
  | giving sock =>
    unfold transferStep
    dsimp only
    split
    · exact Touches.none (h.connect sock (fun _ htransfer => hempty htransfer)) rfl
    · exact hkept
  | giv sock buffer opens =>
    unfold transferStep
    dsimp only
    split
    · exact h.checkGiven sock buffer opens
    · exact hkept
  | header sock length =>
    unfold transferStep
    dsimp only
    split
    · next hreads =>
      split
      · exact Touches.none (h.close sock) rfl
      · refine Touches.none (h.update sock _ ?_) rfl
        rintro c - - transfer' htransfer'
        simp only [NutConn.transfer, Option.some.injEq] at htransfer'
        rw [← htransfer']
        dsimp only
        exact h.reads hreads
    · exact hkept
  | save sock written =>
    unfold transferStep
    dsimp only
    split
    · next hreads =>
      refine Touches.again (Known.update ?_ sock _ ?_) (h.reads hreads) rfl
      · exact h.mono (fun _ hc => hc) (fun _ he => he) (List.subset_cons_self _ _)
      · rintro c - - transfer' htransfer'
        obtain rfl := Option.some.inj htransfer'
        exact List.mem_cons_self
    · exact hkept
  | timeout sock outcome =>
    unfold transferStep
    dsimp only
    split
    · next hreads =>
      exact Touches.none ((h.sendPush (h.reads hreads) outcome).close sock)
        (nutSendPush_touched _ _ _)
    · exact hkept
  | uploading sock =>
    unfold transferStep
    dsimp only
    split
    · exact Touches.none (h.connect sock (fun _ htransfer => hempty htransfer)) rfl
    · exact hkept
  | pushed sock =>
    unfold transferStep
    dsimp only
    split
    · exact Touches.none (h.connect sock (fun _ htransfer => hempty htransfer)) rfl
    · exact hkept
  | get sock started =>
    unfold transferStep
    dsimp only
    split
    · split
      · refine Touches.none (Known.update ?_ sock _ ?_) rfl
        rotate_left
        · exact fun _ _ _ _ htransfer => hempty htransfer
        exact h.mono (fun _ hc => hc) (fun _ he => he) (List.Subset.refl _)
      · exact Touches.none (h.close sock) rfl
    · exact hkept
  | read sock =>
    unfold transferStep
    dsimp only
    split
    · exact Touches.none (h.update sock _ (fun _ _ _ _ htransfer => hempty htransfer)) rfl
    · exact hkept
  | fail sock => exact Touches.none (h.close sock) rfl
  | disconnect sock outcome =>
    unfold transferStep
    dsimp only
    split
    · exact hkept
    · next c hfind =>
      have hremoved : Known { s with conns := removeKey NutConn.sock sock s.conns } :=
        h.mono (fun _ hc => (mem_removeKey.mp hc).1) (fun _ he => he) (List.Subset.refl _)
      split
      · exact Touches.none hremoved rfl
      · next hstage =>
        have hfile := h.conns c (findKey_mem hfind).1 _ (by rw [NutConn.transfer, hstage])
        exact (hremoved.disconnectDownload hfile _ _ _ _ outcome).since rfl
      · split
        · refine Touches.none ?_ rfl
          exact hremoved.mono (fun _ hc => hc) (fun _ he => he) (List.Subset.refl _)
        · exact Touches.none hremoved rfl

/-! ## Runs -/

theorem inSavePath_savedAs {name : List UInt8} :
    InSavePath cfg (savedAs cfg name) ↔ Component name := by
  constructor
  · rintro ⟨name', hsame, hcomponent⟩
    obtain rfl := (List.cons.inj (List.append_cancel_left hsame)).2
    exact hcomponent
  · exact fun hcomponent => ⟨name, rfl, hcomponent⟩

/-- All paths created, written and unlinked stay in the download directory, exactly if the name of
every file that is created is a single component. -/
theorem paths_confined_iff (cfg : TransferConfig) (resolve : List UInt8 → ι) (files : List ι)
    (events : List TransferEvent) :
    (∀ pre, pre <+: stepsOf cfg events →
        ∀ path ∈ (transferRun cfg resolve files pre).touched, InSavePath cfg path) ↔
      ∀ pre step, pre ++ [step] <+: stepsOf cfg events →
        ∀ name, createdBy cfg resolve (transferRun cfg resolve files pre) step = some name →
          Component name := by
  apply forall_prefix_iff_of_aux (transferStep cfg resolve) Known
    (fun s => ∀ path ∈ s.touched, InSavePath cfg path)
    (fun s step => ∀ name, createdBy cfg resolve s step = some name → Component name)
  · exact ⟨List.forall_mem_nil _, List.forall_mem_nil _⟩
  · exact List.forall_mem_nil _
  · intro pre step _ hknown _ hnext name hcreated
    apply inSavePath_savedAs.mp
    apply hnext
    rw [(hknown.step cfg resolve step).touched, hcreated]
    exact Or.inr rfl
  · intro pre step _ hknown hconfined hcomponent
    have hstep := hknown.step cfg resolve step
    refine ⟨hstep.known, fun path hpath => ?_⟩
    rcases (hstep.touched path).mp hpath with hpath | hcreated
    · exact hconfined path hpath
    · obtain ⟨name, hname, rfl⟩ := Option.map_eq_some_iff.mp hcreated
      exact inSavePath_savedAs.mpr (hcomponent name hname)

/-- A query hit with the name `../Meret Becker`, for the search `Meret Becker`. -/
def parentHit : List UInt8 :=
  [1, 0, 0, 127, 0, 0, 1, 0, 0, 0, 0] ++
    [1, 0, 0, 0, 9, 0, 0, 0] ++
    [46, 46, 47, 77, 101, 114, 101, 116, 32, 66, 101, 99, 107, 101, 114, 0, 0] ++
    List.replicate 16 0

theorem parentName_leaves :
    ¬ ∀ (cfg : TransferConfig) (resolve : List UInt8 → List UInt8) (files : List (List UInt8))
      (events : List TransferEvent), ∀ pre, pre <+: stepsOf cfg events →
        ∀ path ∈ (transferRun cfg resolve files pre).touched, InSavePath cfg path := by
  intro hall
  let cfg : TransferConfig :=
    ⟨[47, 116, 109, 112], none, [[77, 101, 114, 101, 116, 32, 66, 101, 99, 107, 101, 114]], 4, 4, 0⟩
  let events : List TransferEvent := [.queryHit ⟨0, parentHit, fun _ => (true, some 1)⟩]
  have hconfined := hall cfg id [] events (stepsOf cfg events) (List.prefix_refl _)
    (savedAs cfg [46, 46, 47, 77, 101, 114, 101, 116, 32, 66, 101, 99, 107, 101, 114]) (by decide)
  exact (inSavePath_savedAs.mp hconfined).slash (by decide)

end Serveez.Nut
