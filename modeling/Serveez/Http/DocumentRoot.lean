import Mathlib.Data.List.Infix

/-!
# What a request can reach in the file system

`http_get_response` refuses a request with `..` in it. It does so after a path that ends in a
slash has been tried with the index file and, without one, been listed; and before everything
else a request that begins with the CGI url has had its script opened.

* `httpProcessUri`: the decoding of a URI.
* `httpGetResponse`: the response up to the delivery of a file, with the operations on the file
  system in their order.
* `confined_iff`: a request with `..` touches nothing and is answered with 403, exactly if it
  does not begin with the CGI url and its path does not end in a slash.

A path is the list of its bytes.
-/

namespace Serveez.Http

abbrev Path := List UInt8

def slash : UInt8 := 47
def tilde : UInt8 := 126
def percent : UInt8 := 37
def question : UInt8 := 63
def dots : Path := [46, 46]

/-! ## The URI -/

/-- `ASC_TO_HEX`, which leaves a character that is no digit as it is. -/
def ascToHex (c : UInt8) : UInt8 :=
  if 48 ≤ c ∧ c ≤ 57 then c - 48
  else if 97 ≤ c ∧ c ≤ 102 then c - (97 - 10)
  else if 65 ≤ c ∧ c ≤ 70 then c - (65 - 10)
  else c

/-- The byte of two digits. -/
def hexByte (h l : UInt8) : UInt8 := (ascToHex h <<< 4) ||| ascToHex l

/-- `http_process_uri`. A percent sign without two characters behind it ends the decoding. -/
def httpProcessUri : Path → Path
  | c :: h :: l :: rest =>
    if c = percent then hexByte h l :: httpProcessUri rest
    else c :: httpProcessUri (h :: l :: rest)
  | uri => uri

/-- The request that the URI of a request line stands for. A decoded zero ends it. -/
def decodedUri (raw : Path) : Path :=
  (httpProcessUri (raw.takeWhile (· ≠ 0))).takeWhile (· ≠ 0)

/-! ## The file system and the configuration -/

inductive FileKind
  | regular
  | link
  | dir
  | other

structure FileSystem where
  openable : Path → Bool
  executable : Path → Bool
  stat : Path → Option FileKind
  readDir : Path → Option (List Path)

inductive FsOp
  | openFile (path : Path)
  | readDir (path : Path)
  | stat (path : Path)
  deriving DecidableEq

/-- The operation opens a file or reads a directory. -/
def FsOp.touches : FsOp → Bool
  | .openFile _ => true
  | .readDir _ => true
  | .stat _ => false

structure HttpConfig where
  docs : Path
  indexfile : Path
  userdir : Option Path
  cgiurl : Path
  cgidir : Path
  /-- The home directory of a user, by `getpwnam`. -/
  home : Path → Option Path

/-- A response: what it did with the file system, its status, and the path that the content or
the listing in it comes from. -/
structure Reply where
  ops : List FsOp
  status : Nat
  sent : Option Path
  deriving DecidableEq

/-! ## The response -/

/-- The script name in a request that begins with the CGI url: the first character behind the
url, and what is up to the next slash or question mark. -/
def scriptOf (cfg : HttpConfig) (request : Path) : Path :=
  let fn := request.drop cfg.cgiurl.length
  fn.take 1 ++ (fn.drop 1).takeWhile (fun c => c ≠ question ∧ c ≠ slash)

/-- `check_cgi`: what it does, whether the script can be run, and the request, which loses its
query. -/
def checkCgi (fs : FileSystem) (cfg : HttpConfig) (request : Path) : List FsOp × Bool × Path :=
  if ¬ cfg.cgiurl <+: request then ([], false, request)
  else
    let filename := cfg.cgidir ++ scriptOf cfg request
    let front := request.take (cfg.cgiurl.length + 1)
    let request := front ++ (request.drop (cfg.cgiurl.length + 1)).takeWhile (· ≠ question)
    ([.openFile filename], fs.openable filename && fs.executable filename, request)

/-- `http_userdir`: the path of a request for the files of a user. -/
def httpUserdir (cfg : HttpConfig) : Path → Option Path
  | _ :: c :: rest =>
    match cfg.userdir with
    | some userdir =>
      let user := rest.takeWhile (· ≠ slash)
      if c = tilde ∧ user ≠ [] then
        (cfg.home user).map (fun dir => dir ++ [slash] ++ userdir ++ rest.dropWhile (· ≠ slash))
      else none
    | none => none
  | _ => none

/-- The path of the requested file. -/
def filePath (cfg : HttpConfig) (request : Path) : Path :=
  (httpUserdir cfg request).getD (cfg.docs ++ request)

/-- `http_dirlist`: the directory without a slash at its end is read, and its entries are
looked at. -/
def httpDirlist (fs : FileSystem) (dirname : Path) : List FsOp × Option Path :=
  let dirname := if dirname.length ≠ 1 ∧ (dirname.getLast? = some slash ∨
    dirname.getLast? = some 92) then dirname.dropLast else dirname
  match fs.readDir dirname with
  | none => ([.readDir dirname], none)
  | some names =>
    (.readDir dirname :: names.map (fun name => .stat (dirname ++ [slash] ++ name)), some dirname)

/-- The delivery of a file that has passed the checks of its path. `deliver` is the status that
the header of an existing file gets from the properties of the request. -/
def deliverFile (fs : FileSystem) (deliver : Path → Nat) (file : Path) (ops : List FsOp) : Reply :=
  match fs.stat file with
  | none => ⟨ops ++ [.stat file], 404, none⟩
  | some .other => ⟨ops ++ [.stat file], 403, none⟩
  | some .dir => ⟨ops ++ [.stat file], 302, none⟩
  | some _ =>
    if fs.openable file then ⟨ops ++ [.stat file, .openFile file], deliver file, some file⟩
    else ⟨ops ++ [.stat file, .openFile file], 404, none⟩

/-- The check for `..` and what follows it. -/
def checkDots (fs : FileSystem) (deliver : Path → Nat) (request file : Path) (ops : List FsOp) :
    Reply :=
  if dots <:+: request then ⟨ops, 403, none⟩ else deliverFile fs deliver file ops

/-- `http_get_response` for a request that is no CGI request; `ops` is what was done before. -/
def fileResponse (fs : FileSystem) (cfg : HttpConfig) (deliver : Path → Nat) (request : Path)
    (ops : List FsOp) : Reply :=
  let file := filePath cfg request
  if file.getLast? = some slash then
    let index := file ++ cfg.indexfile
    if fs.openable index then checkDots fs deliver request index (ops ++ [.openFile index])
    else
      match httpDirlist fs file with
      | (listed, none) => ⟨ops ++ [.openFile index] ++ listed, 404, none⟩
      | (listed, some dir) => ⟨ops ++ [.openFile index] ++ listed, 200, some dir⟩
  else checkDots fs deliver request file ops

/-- `http_get_response`. For a CGI request there is no file response. -/
def httpGetResponse (fs : FileSystem) (cfg : HttpConfig) (deliver : Path → Nat) (request : Path) :
    Option Reply :=
  let cgi := checkCgi fs cfg request
  if cgi.2.1 then none else some (fileResponse fs cfg deliver cgi.2.2 cgi.1)

/-! ## Confinement -/

/-- Nothing is opened, read or sent, and access is denied. -/
def Confined (reply : Reply) : Prop :=
  (∀ op ∈ reply.ops, op.touches = false) ∧ reply.sent = none ∧ reply.status = 403

theorem not_confined_of_open {reply : Reply} {path : Path} (h : FsOp.openFile path ∈ reply.ops) :
    ¬ Confined reply := by
  rintro ⟨hops, -, -⟩
  exact absurd (hops _ h) nofun

/-- What has been done before is part of every response. -/
theorem mem_ops_deliverFile (fs : FileSystem) (deliver : Path → Nat) (file : Path)
    {ops : List FsOp} {op : FsOp} (h : op ∈ ops) : op ∈ (deliverFile fs deliver file ops).ops := by
  unfold deliverFile
  split
  · exact List.mem_append_left _ h
  · exact List.mem_append_left _ h
  · exact List.mem_append_left _ h
  · split <;> exact List.mem_append_left _ h

theorem mem_ops_checkDots (fs : FileSystem) (deliver : Path → Nat) (request file : Path)
    {ops : List FsOp} {op : FsOp} (h : op ∈ ops) :
    op ∈ (checkDots fs deliver request file ops).ops := by
  unfold checkDots
  split
  · exact h
  · exact mem_ops_deliverFile fs deliver file h

theorem mem_ops_fileResponse (fs : FileSystem) (cfg : HttpConfig) (deliver : Path → Nat)
    (request : Path) {ops : List FsOp} {op : FsOp} (h : op ∈ ops) :
    op ∈ (fileResponse fs cfg deliver request ops).ops := by
  unfold fileResponse
  dsimp only
  split
  · split
    · exact mem_ops_checkDots _ _ _ _ (List.mem_append_left _ h)
    · split <;> exact List.mem_append_left _ (List.mem_append_left _ h)
  · exact mem_ops_checkDots _ _ _ _ h

theorem open_mem_fileResponse (fs : FileSystem) (cfg : HttpConfig) (deliver : Path → Nat)
    (request : Path) (ops : List FsOp) (h : (filePath cfg request).getLast? = some slash) :
    .openFile (filePath cfg request ++ cfg.indexfile) ∈
      (fileResponse fs cfg deliver request ops).ops := by
  unfold fileResponse
  dsimp only
  rw [if_pos h]
  split
  · exact mem_ops_checkDots _ _ _ _ (List.mem_append_right _ (List.mem_singleton_self _))
  · split <;> exact List.mem_append_left _ (List.mem_append_right _ (List.mem_singleton_self _))

/-- **Confinement.** For every request URI that decodes to a text with `..` in it and is not run
as a script: nothing is opened, read or sent and the answer is 403, exactly if the request does
not begin with the CGI url and its path does not end in a slash. -/
theorem confined_iff (fs : FileSystem) (cfg : HttpConfig) (deliver : Path → Nat) (raw : Path)
    (hdots : dots <:+: decodedUri raw) (reply : Reply)
    (hreply : httpGetResponse fs cfg deliver (decodedUri raw) = some reply) :
    Confined reply ↔ ¬ cfg.cgiurl <+: decodedUri raw ∧
      (filePath cfg (decodedUri raw)).getLast? ≠ some slash := by
  generalize decodedUri raw = request at hdots hreply
  rw [httpGetResponse] at hreply
  split at hreply
  · cases hreply
  rw [Option.some_inj] at hreply
  subst hreply
  by_cases hcgi : cfg.cgiurl <+: request
  · -- the script has been opened
    have hopened : .openFile (cfg.cgidir ++ scriptOf cfg request) ∈
        (checkCgi fs cfg request).1 := by
      rw [checkCgi, if_neg (not_not.mpr hcgi)]
      exact List.mem_singleton_self _
    exact iff_of_false (not_confined_of_open (mem_ops_fileResponse _ _ _ _ hopened))
      (fun h => h.1 hcgi)
  · rw [checkCgi, if_pos hcgi]
    by_cases hslash : (filePath cfg request).getLast? = some slash
    · refine iff_of_false (not_confined_of_open (open_mem_fileResponse _ _ _ _ _ hslash)) ?_
      exact fun h => h.2 hslash
    · have hdenied : fileResponse fs cfg deliver request [] = ⟨[], 403, none⟩ := by
        unfold fileResponse
        dsimp only
        rw [if_neg hslash, checkDots, if_pos hdots]
      rw [hdenied]
      exact iff_of_true ⟨fun _ h => absurd h List.not_mem_nil, rfl, rfl⟩ ⟨hcgi, hslash⟩

def bytesOf (s : String) : Path := s.toList.map (fun c => UInt8.ofNat c.toNat)

/-- A server with its documents in `/docs`, and a file system of readable directories. -/
def docsConfig : HttpConfig :=
  ⟨bytesOf "/docs", bytesOf "index.html", none, bytesOf "/cgi-bin", bytesOf "/cgi", fun _ => none⟩

def listedFs : FileSystem := ⟨fun _ => false, fun _ => false, fun _ => none, fun _ => some []⟩

/-- An encoded `..` without a slash behind it. -/
theorem confined_encoded_dots :
    dots <:+: decodedUri (bytesOf "/%2e%2E/etc/passwd") ∧
      Confined ⟨[], 403, none⟩ := by
  refine ⟨by decide +kernel, ?_⟩
  refine (confined_iff listedFs docsConfig (fun _ => 200) (bytesOf "/%2e%2E/etc/passwd")
    (by decide +kernel) ⟨[], 403, none⟩ (by decide +kernel)).mpr
      ⟨by decide +kernel, by decide +kernel⟩

/-- With a slash behind it the directory above the documents is listed. -/
theorem parent_directory_listed :
    ∃ reply, dots <:+: decodedUri (bytesOf "/%2e%2e/") ∧
      httpGetResponse listedFs docsConfig (fun _ => 200) (decodedUri (bytesOf "/%2e%2e/")) =
        some reply ∧ reply.sent = some (bytesOf "/docs/..") ∧ ¬ Confined reply := by
  refine ⟨⟨[.openFile (bytesOf "/docs/../index.html"), .readDir (bytesOf "/docs/..")], 200,
    some (bytesOf "/docs/..")⟩, by decide +kernel, by decide +kernel, rfl, ?_⟩
  exact not_confined_of_open List.mem_cons_self

end Serveez.Http
