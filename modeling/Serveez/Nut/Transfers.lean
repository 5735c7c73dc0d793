import Serveez.Lib.Keyed
import Serveez.Nut.Confined
import Serveez.Nut.Download
import Serveez.Nut.Regex

/-!
# Downloads and uploads of the Gnutella server

A query hit for an own search starts a download: `nut_init_transfer` creates the file and
connects to the host. If the download ends before the header of the answer, a push request is
sent and kept in `cfg->push`; the host then connects itself and says which file it gives, and
`nut_check_given` goes on with the download kept. Uploads start with a `GET` line, on a
connection that another host or a push request has opened.

The callbacks are the steps of the model, in any order. What the system answers (whether a file
can be created, whether a connection is made) is part of a step. A file is known by a node, to
which `resolve` leads from a path; several paths may lead to one node. `completed`, `clobbered` and
`touched` are a history of the files: those received completely, those that were there when they
were opened or that were unlinked by a connection that had not created them, and the paths
created, written or unlinked.
-/

set_option linter.unusedSectionVars false

namespace Serveez.Nut

open Lib

structure TransferConfig where
  savePath : List UInt8
  extensions : Option (List (List UInt8))
  search : List (List UInt8)
  maxDnloads : Int
  maxUploads : Int
  minSpeed : Nat

/-- `nut_transfer_t`; `origin` is the connection of the query hit. -/
structure NutTransfer where
  index : UInt32
  guid : List UInt8
  origin : Nat
  file : List UInt8
  size : Int

/-- What the callbacks of a connection are for.
* `given` waits for a `GIV` line.
* `download`: `opened` tells whether the connection has created the file, `dialed` whether the
  server made the connection; `announced` and `written` are the bytes of the file according to
  the header, and those written so far.
* `upload` has had so many transfers; `reading` as long as the file is being read. -/
inductive Stage
  | given
  | download (transfer : NutTransfer) (opened dialed hdr : Bool) (announced written : Nat)
  | upload (transfers : Nat) (reading : Bool)

/-- A connection. When a callback has failed it is `closing` and not read any more. -/
structure NutConn where
  sock : Nat
  stage : Stage
  closing : Bool

structure Transfers (ι : Type) where
  dnloads : Int
  uploads : Int
  push : List (List UInt8 × NutTransfer)
  conns : List NutConn
  files : List ι
  completed : List ι
  clobbered : List ι
  touched : List (List UInt8)

variable {ι : Type} [DecidableEq ι]

/-! ## Files -/

/-- `open` with `O_CREAT` -/
def createFile (resolve : List UInt8 → ι) (s : Transfers ι) (file : List UInt8) : Transfers ι :=
  { s with
    files := resolve file :: s.files
    clobbered := if resolve file ∈ s.files then resolve file :: s.clobbered else s.clobbered
    touched := file :: s.touched }

/-- `unlink`, by a connection that has created the file or has not. -/
def unlinkFile (resolve : List UInt8 → ι) (s : Transfers ι) (file : List UInt8) (opened : Bool) :
    Transfers ι :=
  { s with
    files := s.files.filter (· ≠ resolve file)
    clobbered :=
      if resolve file ∈ s.files ∧ opened = false then resolve file :: s.clobbered
      else s.clobbered
    touched := file :: s.touched }

/-! ## Push requests -/

def hexDigit (d : UInt8) : UInt8 := if d < 10 then d + 48 else d + 55

/-- `nut_text_guid` -/
def nutTextGuid (guid : List UInt8) : List UInt8 :=
  guid.flatMap (fun b => [hexDigit (b / 16), hexDigit (b % 16)])

/-- `"%d:%s"` with the index and the GUID. -/
def pushKey (index : UInt32) (guid : List UInt8) : List UInt8 :=
  (toString index.toBitVec.toInt).toList.map (fun c => UInt8.ofNat c.toNat) ++
    58 :: nutTextGuid guid

/-- What a push request meets: whether the connection of the query hit is still there, and whether
it takes the packet. -/
structure PushOutcome where
  found : Bool
  written : Bool

def nutSendPush (s : Transfers ι) (transfer : NutTransfer) (outcome : PushOutcome) :
    Transfers ι :=
  let key := pushKey transfer.index transfer.guid
  if outcome.found = false then s
  else if (findKey Prod.fst key s.push).isSome then s
  else if outcome.written = false then s
  else { s with push := (key, transfer) :: s.push }

/-! ## Starting downloads -/

/-- The name ends with the extension and is longer. -/
def hasExtension (savefile ext : List UInt8) : Bool :=
  ext.length < savefile.length ∧
    (savefile.drop (savefile.length - ext.length)).map toLower = ext.map toLower

/-- The checks of a name: the extensions and the search patterns. -/
def validName (cfg : TransferConfig) (savefile : List UInt8) : Bool :=
  (match cfg.extensions with
    | none => true
    | some extensions => extensions.any (hasExtension savefile)) &&
  cfg.search.any (nutStringRegex savefile)

/-- `"%s/%s"` with the download path and the name. -/
def savedAs (cfg : TransferConfig) (savefile : List UInt8) : List UInt8 :=
  cfg.savePath ++ 47 :: savefile

/-- A download is started only if `nut_reply` and `nut_init_transfer` let the record pass: there
may be more downloads, the name is valid and the file is not there. -/
def startsDownload (cfg : TransferConfig) (resolve : List UInt8 → ι) (s : Transfers ι)
    (savefile : List UInt8) : Bool :=
  s.dnloads < cfg.maxDnloads ∧ validName cfg savefile ∧ resolve (savedAs cfg savefile) ∉ s.files

/-- A record of a query hit from `origin`. The file can be created if `opens`, and `connected` is
the new connection if there is one. -/
def nutInitTransfer (cfg : TransferConfig) (resolve : List UInt8 → ι) (s : Transfers ι)
    (origin : Nat) (guid : List UInt8) (record : NutRecord) (opens : Bool)
    (connected : Option Nat) : Transfers ι :=
  if startsDownload cfg resolve s record.file = false then s
  else if opens = false then s
  else
    let file := savedAs cfg record.file
    let s := createFile resolve s file
    match connected with
    | none => s
    | some sock =>
      let transfer := ⟨record.index, guid, origin, file, 0⟩
      { s with
        dnloads := s.dnloads + 1
        conns := ⟨sock, .download transfer true true false 0 0, false⟩ :: s.conns }

/-- The key in a `GIV` line: what is between the word and the first slash. -/
def givenKey (buffer : List UInt8) : Option (List UInt8) :=
  let line := buffer.drop 4
  if 47 ∈ line then some (cString (line.takeWhile (· ≠ 47))) else none

/-- The connection `sock` is changed. -/
def Transfers.update (s : Transfers ι) (sock : Nat) (f : NutConn → NutConn) : Transfers ι :=
  { s with conns := modifyKey NutConn.sock sock f s.conns }

def NutConn.close (c : NutConn) : NutConn := { c with closing := true }

/-- `nut_check_given`, called with the receive buffer. -/
def nutCheckGiven (resolve : List UInt8 → ι) (s : Transfers ι) (sock : Nat)
    (buffer : List UInt8) (opens : Bool) : Transfers ι :=
  if ([10, 10] : List UInt8) <:+: buffer then
    match (givenKey buffer).bind (fun key => findKey Prod.fst key s.push) with
    | none => s.update sock NutConn.close
    | some (key, transfer) =>
      let s := { s with push := removeKey Prod.fst key s.push, dnloads := s.dnloads + 1 }
      if resolve transfer.file ∈ s.files ∨ opens = false then
        s.update sock (fun c =>
          { c with stage := .download transfer false false false 0 0, closing := true })
      else
        (createFile resolve s transfer.file).update sock (fun c =>
          { c with stage := .download transfer true false false 0 0 })
  else s

/-! ## Steps -/

/-- What happens to the transfers.
* `hit`: a record that the loop of `nut_reply` accepts.
* `giving`, `giv`: a connection that gives a file, and a call of `nut_check_given`.
* `header`: the end of the header of an answer, with the value of its `Content-length`.
* `save`: bytes written to the file.
* `timeout`: `nut_connect_timeout`.
* `uploading`: `nut_connect_socket` for a connection that begins with `GET`.
* `pushed`: `nut_push_request` for a file of the database, with the new connection.
* `get`: the end of a header with `GET`, for a file that can be sent or not.
* `read`: a file has been read to its end.
* `fail`: a callback fails, the host closes the connection.
* `disconnect`: the callback for the end of the connection. -/
inductive TransferStep
  | hit (origin : Nat) (guid : List UInt8) (record : NutRecord) (opens : Bool)
      (connected : Option Nat)
  | giving (sock : Nat)
  | giv (sock : Nat) (buffer : List UInt8) (opens : Bool)
  | header (sock : Nat) (length : Option (List UInt8))
  | save (sock : Nat) (written : Nat)
  | timeout (sock : Nat) (outcome : PushOutcome)
  | uploading (sock : Nat)
  | pushed (sock : Nat)
  | get (sock : Nat) (started : Bool)
  | read (sock : Nat)
  | fail (sock : Nat)
  | disconnect (sock : Nat) (outcome : PushOutcome)

/-- The state of a connection that can be read. -/
def Transfers.reads (s : Transfers ι) (sock : Nat) : Option Stage :=
  match findKey NutConn.sock sock s.conns with
  | some ⟨_, stage, false⟩ => some stage
  | _ => none

def Transfers.fresh (s : Transfers ι) (sock : Nat) : Bool :=
  (findKey NutConn.sock sock s.conns).isNone

def Transfers.connect (s : Transfers ι) (sock : Nat) (stage : Stage) : Transfers ι :=
  { s with conns := ⟨sock, stage, false⟩ :: s.conns }

/-- `nut_disconnect_transfer`. The file stays if the header has come and nothing is left of its
size. -/
def nutDisconnectDownload (resolve : List UInt8 → ι) (s : Transfers ι) (transfer : NutTransfer)
    (opened hdr : Bool) (announced written : Nat) (outcome : PushOutcome) : Transfers ι :=
  let s := { s with dnloads := s.dnloads - 1 }
  let s :=
    if 0 < transfer.size ∨ hdr = false then unlinkFile resolve s transfer.file opened else s
  let s :=
    if hdr = true ∧ announced ≤ written then
      { s with completed := resolve transfer.file :: s.completed }
    else s
  if hdr = false then nutSendPush s transfer outcome else s

def transferStep (cfg : TransferConfig) (resolve : List UInt8 → ι) (s : Transfers ι) :
    TransferStep → Transfers ι
  | .hit origin guid record opens connected =>
    if connected.all s.fresh then nutInitTransfer cfg resolve s origin guid record opens connected
    else s
  | .giving sock => if s.fresh sock then s.connect sock .given else s
  | .giv sock buffer opens =>
    match s.reads sock with
    | some .given => nutCheckGiven resolve s sock buffer opens
    | _ => s
  | .header sock length =>
    match s.reads sock with
    | some (.download transfer opened dialed false _ written) =>
      match length with
      | none => s.update sock NutConn.close
      | some length =>
        s.update sock (fun c => { c with
          stage := .download { transfer with size := wrapInt (svzAtoi length) } opened dialed true
            (contentLength length) written })
    | _ => s
  | .save sock written =>
    match s.reads sock with
    | some (.download transfer opened dialed true announced before) =>
      let transfer := { transfer with size := transfer.size - written }
      { s with touched := transfer.file :: s.touched }.update sock (fun c => { c with
          stage := .download transfer opened dialed true announced (before + written)
          closing := decide (transfer.size ≤ 0) })
    | _ => s
  | .timeout sock outcome =>
    match s.reads sock with
    | some (.download transfer _ true false _ _) =>
      (nutSendPush s transfer outcome).update sock NutConn.close
    | _ => s
  | .uploading sock =>
    if s.fresh sock ∧ s.uploads ≤ cfg.maxUploads then s.connect sock (.upload 0 false) else s
  | .pushed sock =>
    if s.fresh sock ∧ s.uploads ≤ cfg.maxUploads then s.connect sock (.upload 0 false) else s
  | .get sock started =>
    match s.reads sock with
    | some (.upload transfers false) =>
      if started then
        { s with uploads := s.uploads + 1 }.update sock (fun c => { c with
          stage := .upload (transfers + 1) true })
      else s.update sock NutConn.close
    | _ => s
  | .read sock =>
    match s.reads sock with
    | some (.upload transfers true) =>
      s.update sock (fun c => { c with stage := .upload transfers false })
    | _ => s
  | .fail sock => s.update sock NutConn.close
  | .disconnect sock outcome =>
    match findKey NutConn.sock sock s.conns with
    | none => s
    | some c =>
      let s := { s with conns := removeKey NutConn.sock sock s.conns }
      match c.stage with
      | .given => s
      | .download transfer opened _ hdr announced written =>
        nutDisconnectDownload resolve s transfer opened hdr announced written outcome
      | .upload transfers _ => if 0 < transfers then { s with uploads := s.uploads - 1 } else s

/-! ## Connections of a step -/

theorem reads_spec {s : Transfers ι} {sock : Nat} {stage : Stage} (h : s.reads sock = some stage) :
    findKey NutConn.sock sock s.conns = some ⟨sock, stage, false⟩ := by
  unfold Transfers.reads at h
  split at h
  · next sock' stage' hfind =>
    obtain ⟨-, rfl⟩ := findKey_mem hfind
    rw [hfind, Option.some.inj h]
  · exact nomatch h

theorem fresh_spec {s : Transfers ι} {sock : Nat} (h : s.fresh sock = true) :
    findKey NutConn.sock sock s.conns = none := Option.isNone_iff_eq_none.mp h

@[simp] theorem nutSendPush_conns (s : Transfers ι) (transfer : NutTransfer)
    (outcome : PushOutcome) : (nutSendPush s transfer outcome).conns = s.conns := by
  unfold nutSendPush
  dsimp only
  split_ifs <;> rfl

@[simp] theorem nutDisconnectDownload_conns (resolve : List UInt8 → ι) (s : Transfers ι)
    (transfer : NutTransfer) (opened hdr : Bool) (announced written : Nat)
    (outcome : PushOutcome) :
    (nutDisconnectDownload resolve s transfer opened hdr announced written outcome).conns =
      s.conns := by
  unfold nutDisconnectDownload
  dsimp only
  split_ifs <;> simp [unlinkFile]

/-- No step gives two connections one number. -/
theorem transferStep_keyed (cfg : TransferConfig) (resolve : List UInt8 → ι) {s : Transfers ι}
    (h : Keyed NutConn.sock s.conns) (step : TransferStep) :
    Keyed NutConn.sock (transferStep cfg resolve s step).conns := by
  have hupdate (s' : Transfers ι) (hs' : s'.conns = s.conns) (sock : Nat) (f : NutConn → NutConn)
      (hf : ∀ c, (f c).sock = c.sock) : Keyed NutConn.sock (s'.update sock f).conns := by
    apply Keyed.modifyKey
    · rw [hs']
      exact h
    · exact hf
  have hconnect (sock : Nat) (stage : Stage) (hfresh : s.fresh sock = true) :
      Keyed NutConn.sock (s.connect sock stage).conns := by
    have hnone := fresh_spec hfresh
    show Keyed NutConn.sock (⟨sock, stage, false⟩ :: s.conns)
    exact h.cons hnone
  cases step with
  | hit origin guid record opens connected =>
    unfold transferStep nutInitTransfer
    dsimp only
    split_ifs with hfresh
    · exact h
    · exact h
    · cases connected with
      | none => exact h
      | some sock => exact hconnect sock _ hfresh
    · exact h
  | giving sock =>
    unfold transferStep
    dsimp only
    split_ifs with hfresh
    · exact hconnect sock _ hfresh
    · exact h
  | giv sock buffer opens =>
    unfold transferStep nutCheckGiven
    dsimp only
    split
    · split_ifs
      · split
        · exact hupdate s rfl sock _ (fun _ => rfl)
        · split_ifs
          · exact hupdate _ rfl sock _ (fun _ => rfl)
          · exact hupdate _ rfl sock _ (fun _ => rfl)
      · exact h
    · exact h
  | header sock length =>
    unfold transferStep
    dsimp only
    split
    · split
      · exact hupdate s rfl sock _ (fun _ => rfl)
      · exact hupdate s rfl sock _ (fun _ => rfl)
    · exact h
  | save sock written =>
    unfold transferStep
    dsimp only
    split
    · exact hupdate _ rfl sock _ (fun _ => rfl)
    · exact h
  | timeout sock outcome =>
    unfold transferStep
    dsimp only
    split
    · exact hupdate _ (nutSendPush_conns _ _ _) sock _ (fun _ => rfl)
    · exact h
  | uploading sock =>
    unfold transferStep
    dsimp only
    split_ifs with hmay
    · exact hconnect sock _ hmay.1
    · exact h
  | pushed sock =>
    unfold transferStep
    dsimp only
    split_ifs with hmay
    · exact hconnect sock _ hmay.1
    · exact h
  | get sock started =>
    unfold transferStep
    dsimp only
    split
    · split_ifs
      · exact hupdate _ rfl sock _ (fun _ => rfl)
      · exact hupdate s rfl sock _ (fun _ => rfl)
    · exact h
  | read sock =>
    unfold transferStep
    dsimp only
    split
    · exact hupdate s rfl sock _ (fun _ => rfl)
    · exact h
  | fail sock => exact hupdate s rfl sock _ (fun _ => rfl)
  | disconnect sock outcome =>
    unfold transferStep
    dsimp only
    split
    · exact h
    · split
      · exact h.removeKey sock
      · rw [nutDisconnectDownload_conns]
        exact h.removeKey sock
      · split_ifs
        · exact h.removeKey sock
        · exact h.removeKey sock

/-! ## Runs -/

/-- The payload of query hits for an own search, with what each record meets. -/
structure QueryHit where
  origin : Nat
  payload : List UInt8
  outcomes : Nat → Bool × Option Nat

/-- What the server is faced with: query hits, and single steps. -/
inductive TransferEvent
  | queryHit (hit : QueryHit)
  | single (step : TransferStep)

/-- The records that the loop of `nut_reply` accepts, one after the other. -/
def hitSteps (cfg : TransferConfig) (hit : QueryHit) : List TransferStep :=
  let guid := hit.payload.drop (hit.payload.length - nutGuidSize)
  if hit.payload.length < sizeofNutReply + nutGuidSize then []
  else if ofBytes ((hit.payload.drop 7).take 2) < cfg.minSpeed then []
  else
    match replyRecords hit.payload with
    | none => []
    | some (records, _) =>
      records.zipIdx.map fun (record, n) =>
        .hit hit.origin guid record (hit.outcomes n).1 (hit.outcomes n).2

def stepsOf (cfg : TransferConfig) (events : List TransferEvent) : List TransferStep :=
  events.flatMap fun
    | .queryHit hit => hitSteps cfg hit
    | .single step => [step]

/-- No transfers, and the files that are there. -/
def startTransfers (files : List ι) : Transfers ι := ⟨0, 0, [], [], files, [], [], []⟩

def transferRun (cfg : TransferConfig) (resolve : List UInt8 → ι) (files : List ι)
    (steps : List TransferStep) : Transfers ι :=
  steps.foldl (transferStep cfg resolve) (startTransfers files)

end Serveez.Nut
