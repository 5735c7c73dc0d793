import Serveez.Nut.PushHandshake

/-!
# Requests for files

A query hit announces a file by its index and its name. The host that wants the file makes the
name printable (`nut_canonize_file`) and asks for it with a `GET` request, either on a connection
of its own (`nut_init_transfer`) or on the one that a push request has opened
(`nut_check_given`). The server that announced the file reads the request with
`nut_check_upload` and looks it up in its database.

* `nutCheckUpload_request`: what the server finds for a request.
* `getRequest_iff`: when this is the file that was announced.
-/

namespace Serveez.Nut

open Lib
open Socket (sockPrintf)

/-! ## The database -/

/-- A name that `readdir` delivers, as a string. -/
structure DirName where
  bytes : List UInt8
  noZero : 0 ∉ bytes
  isDirName : IsDirName bytes

structure Database where
  files : List NutFile
  dbFiles : UInt32

def nutAddDatabase (cfg : Database) (file : DirName × Nat) : Database where
  files := ⟨cfg.dbFiles, file.2, file.1.bytes, file.1.noZero⟩ :: cfg.files
  dbFiles := cfg.dbFiles + 1

/-- The database after `nut_read_database_r` has found some files. -/
def readDatabase (found : List (DirName × Nat)) : Database :=
  found.foldl nutAddDatabase ⟨[], 0⟩

/-! ## The request -/

/-- `GET /get/` -/
def nutGet : List UInt8 := [71, 69, 84, 32, 47, 103, 101, 116, 47]

/-- A space and `HTTP/` -/
def nutHttp : List UInt8 := [32, 72, 84, 84, 80, 47]

/-- `User-agent: Gnutella` and the end of the line -/
def nutAgent : List UInt8 :=
  [85, 115, 101, 114, 45, 97, 103, 101, 110, 116, 58, 32, 71, 110, 117, 116, 101, 108, 108, 97,
    13, 10]

/-- `Content-range: bytes=0-` and the end of the line -/
def nutRange : List UInt8 :=
  [67, 111, 110, 116, 101, 110, 116, 45, 114, 97, 110, 103, 101, 58, 32, 98, 121, 116, 101, 115,
    61, 48, 45, 13, 10]

/-- `NUT_GET "%d/%s " NUT_HTTP "1.0\r\n"` -/
def getText (index : UInt32) (file : List UInt8) : List UInt8 :=
  nutGet ++ (signedBytes index.toBitVec.toInt ++ 47 :: (file ++ (nutHttp ++ [49, 46, 48, 13, 10])))

/-- The four calls of `svz_sock_printf`. -/
def getRequest (buffer : Socket.PrintBuffer) (index : UInt32) (file : List UInt8) : List UInt8 :=
  sockPrintf buffer (getText index file) ++ (sockPrintf buffer nutAgent ++
    (sockPrintf buffer nutRange ++ sockPrintf buffer [13, 10]))

/-- `nut_check_given` takes the name from the path of the file: what is behind the last slash or
backslash. -/
def originalName (path : List UInt8) : List UInt8 :=
  (path.reverse.takeWhile (fun c => c ≠ 47 ∧ c ≠ 92)).reverse

/-- The functions that ask for a file. -/
inductive GetRoute
  | nutInitTransfer
  | nutCheckGiven (cfg : TransferConfig)

/-- The request for the file of a record; `nut_reply` has made its name printable. -/
def GetRoute.request (route : GetRoute) (buffer : Socket.PrintBuffer) (record : NutRecord) :
    List UInt8 :=
  match route with
  | .nutInitTransfer => getRequest buffer record.index record.file
  | .nutCheckGiven cfg => getRequest buffer record.index (originalName (savedAs cfg record.file))

/-- The record that `nut_reply` reads in the query hit for a file. -/
def announced (entry : NutFile) (behind : Int) : NutRecord :=
  ⟨entry.index, UInt32.ofNat entry.size, nutCanonizeFile entry.file, behind⟩

/-! ## The server -/

/-- The search for the end of the file name, backwards from `p`. -/
def httpAt (f : List UInt8) : Nat → Option Nat
  | 0 => none
  | p + 1 => if nutHttp <+: f.drop (p + 1) then some (p + 1) else httpAt f p

/-- What `nut_check_upload` makes of the receive buffer; what is left of it for a file that is
found. -/
inductive Upload
  | waits
  | refused
  | found (entry : NutFile) (rest : List UInt8)

/-- The `GET` line: the index and the name of the file. `line` is what is in the receive buffer
behind `NUT_GET`, and `len` the number of its bytes up to `end`. -/
def parseGetLine (line : List UInt8) (len : Nat) : Option (Nat × List UInt8) :=
  let digits := ((line.take len).takeWhile isDigit).length
  if (line.take len)[digits]? ≠ some 47 then none
  else
    let f := line.drop (digits + 1)
    let width :=
      (((line.take len).drop (digits + 1)).takeWhile (fun c => c ≠ 13 ∧ c ≠ 10)).length
    (httpAt f width).map fun p => (svzAtoi (line.take len), f.take p)

def nutCheckUpload (database : List NutFile) (buffer : List UInt8) : Upload :=
  if buffer.length < nutGet.length then .waits
  else if ¬ nutGet <+: buffer then .refused
  else
    match separatorAt buffer with
    | none => .waits
    | some p =>
      match parseGetLine (buffer.drop nutGet.length) (p + 1 - nutGet.length) with
      | none => .refused
      | some (index, file) =>
        match nutGetDatabase database (some file) (UInt32.ofNat index) with
        | none => .refused
        | some entry => .found entry (buffer.drop (p + 4))

/-- The file that was announced is found. -/
def Resolves (cfg : Database) (route : GetRoute) (buffer : Socket.PrintBuffer) (entry : NutFile)
    (behind : Int) : Prop :=
  ∃ rest, nutCheckUpload cfg.files (route.request buffer (announced entry behind)) =
    .found entry rest

/-! ## The text of a request -/

/-- What is behind the name. -/
def behindName : List UInt8 :=
  nutHttp ++ [49, 46, 48, 13, 10] ++ (nutAgent ++ (nutRange ++ [13, 10]))

theorem getRequest_eq (buffer : Socket.PrintBuffer) (index : UInt32) {file : List UInt8}
    (hfile : file.length ≤ 255) :
    getRequest buffer index file =
      nutGet ++ (signedBytes index.toBitVec.toInt ++ 47 :: (file ++ behindName)) := by
  have hsize : Socket.vsnprintfBufSize = 2048 := rfl
  have hsigned : (signedBytes index.toBitVec.toInt).length ≤ 11 := by
    apply length_signedBytes_le (by omega)
    have hlt := index.toBitVec.isLt
    rw [BitVec.toInt_eq_toNat_cond]
    split <;> omega
  have hprint : ∀ text : List UInt8, text.length < 2048 → sockPrintf buffer text = text := by
    intro text htext
    exact Socket.sockPrintf_eq buffer (hsize ▸ htext)
  have hline : (getText index file).length < 2048 := by
    unfold getText nutGet nutHttp
    simp only [List.length_append, List.length_cons, List.length_nil]
    omega
  unfold getRequest behindName
  rw [hprint _ hline, hprint nutAgent (by simp [nutAgent]), hprint nutRange (by simp [nutRange]),
    hprint _ (by simp)]
  simp [getText]

/-- The end of a header is not in front of its first carriage return. -/
theorem separatorAt_append_left {front rest : List UInt8} {p : Nat} (hfront : 13 ∉ front)
    (hrest : separatorAt rest = some p) :
    separatorAt (front ++ rest) = some (front.length + p) := by
  induction front with
  | nil => simpa using hrest
  | cons c front ih =>
    rw [List.mem_cons, not_or] at hfront
    have hno : nutSeparator.isPrefixOf (c :: (front ++ rest)) = false := by
      rw [nutSeparator, List.isPrefixOf_cons_cons, Bool.and_eq_false_iff]
      exact Or.inl (by simpa using hfront.1)
    rw [List.cons_append, separatorAt, hno, ih hfront.2, List.length_cons]
    simp
    omega

theorem separatorAt_behindName : separatorAt behindName = some 56 := by decide

/-! ## The name in the line -/

theorem httpAt_skip (f : List UInt8) (p m : Nat)
    (h : ∀ k, 0 < k → k ≤ m → ¬ nutHttp <+: f.drop (p + k)) : httpAt f (p + m) = httpAt f p := by
  induction m with
  | zero => rfl
  | succ m ih =>
    have hlast := h (m + 1) (by omega) (by omega)
    rw [← Nat.add_assoc] at hlast ⊢
    rw [httpAt, if_neg hlast]
    exact ih (fun k hpos hk => h k hpos (by omega))

/-- The last `HTTP/` of the line is the one that ends the name, also if the name has one itself. -/
theorem httpAt_name (name : List UInt8) :
    httpAt (name ++ behindName) (name.length + 9) =
      if name = [] then none else some name.length := by
  have hnone : ∀ k < 10, 0 < k → ¬ nutHttp <+: behindName.drop k := by decide
  rw [httpAt_skip]
  · cases name with
    | nil => rfl
    | cons c name =>
      have hhere : nutHttp <+: ((c :: name) ++ behindName).drop (name.length + 1) := by
        rw [List.drop_left' (List.length_cons)]
        exact ⟨_, by rw [behindName, List.append_assoc]⟩
      rw [List.length_cons, httpAt, if_pos hhere, if_neg (by simp)]
  · intro k hpos hk
    rw [List.drop_length_add_append]
    exact hnone k (by omega) hpos

theorem parseGetLine_digits {index : Nat} (hindex : index < 2 ^ 32) {name : List UInt8}
    (hname : ∀ c ∈ name, c ≠ 13 ∧ c ≠ 10) :
    parseGetLine (decimalBytes index ++ 47 :: (name ++ behindName))
        ((decimalBytes index).length + 1 + name.length + 57) =
      if name = [] then none else some (index, name) := by
  have hdigits : ∀ c ∈ decimalBytes index, isDigit c = true := fun c hc =>
    isDigit_iff.mpr (isDigitByte_of_mem hc)
  have hslash : ¬ isDigit 47 = true := by decide
  have htake : (decimalBytes index ++ 47 :: (name ++ behindName)).take
      ((decimalBytes index).length + 1 + name.length + 57) =
      decimalBytes index ++ 47 :: (name ++ behindName.take 57) := by
    have hsum : (decimalBytes index).length + 1 + name.length + 57 =
        (decimalBytes index).length + ((name.length + 57) + 1) := by omega
    rw [hsum, List.take_length_add_append, List.take_succ_cons, List.take_length_add_append]
  have hcut : (decimalBytes index ++ 47 :: (name ++ behindName.take 57)).takeWhile isDigit =
      decimalBytes index := by
    rw [List.takeWhile_append_of_pos hdigits, List.takeWhile_cons, if_neg hslash, List.append_nil]
  have hdrop : ∀ rest : List UInt8,
      (decimalBytes index ++ 47 :: rest).drop ((decimalBytes index).length + 1) = rest := by
    intro rest
    rw [List.drop_length_add_append, List.drop_succ_cons, List.drop_zero]
  have hread : svzAtoi (decimalBytes index ++ 47 :: (name ++ behindName.take 57)) = index := by
    apply svzAtoi_decimalBytes hindex
    intro c hc
    obtain rfl : 47 = c := Option.some.inj hc
    decide
  have hwidth : ((name ++ behindName.take 57).takeWhile (fun c => c ≠ 13 ∧ c ≠ 10)).length =
      name.length + 9 := by
    rw [List.takeWhile_append_of_pos (fun c hc => decide_eq_true (hname c hc)), List.length_append]
    rfl
  unfold parseGetLine
  dsimp only
  rw [htake, hcut, hdrop, hdrop, hwidth, httpAt_name, hread, List.getElem?_append_right (by simp)]
  simp only [Nat.sub_self, List.getElem?_cons_zero, ne_eq, not_true_eq_false, if_false]
  split_ifs with hempty
  · rfl
  · simp

/-- An index printed with a sign is not read. -/
theorem parseGetLine_minus (line : List UInt8) {len : Nat} (hlen : 0 < len) :
    parseGetLine (45 :: line) len = none := by
  have hminus : ¬ isDigit 45 = true := by decide
  obtain ⟨k, rfl⟩ : ∃ k, len = k + 1 := ⟨len - 1, by omega⟩
  unfold parseGetLine
  rw [List.take_succ_cons, List.takeWhile_cons, if_neg hminus]
  simp

/-! ## What the server finds -/

/-- The request is read as it was meant unless the index was printed with a sign or the name is
empty. -/
theorem nutCheckUpload_request (database : List NutFile) (buffer : Socket.PrintBuffer)
    (index : UInt32) {name : List UInt8} (hlen : name.length ≤ 255)
    (hname : ∀ c ∈ name, isPrint c = true) :
    nutCheckUpload database (getRequest buffer index name) =
      if index.toNat < 2 ^ 31 ∧ name ≠ [] then
        match nutGetDatabase database (some name) index with
        | none => .refused
        | some entry => .found entry []
      else .refused := by
  have hplain : ∀ c ∈ name, c ≠ 13 ∧ c ≠ 10 := by
    intro c hc
    have hprint := hname c hc
    constructor
    · rintro rfl
      exact absurd hprint (by decide)
    · rintro rfl
      exact absurd hprint (by decide)
  have hcr : 13 ∉ name := fun hmem => (hplain 13 hmem).1 rfl
  generalize hsigned : signedBytes index.toBitVec.toInt = signed
  have hsep : separatorAt (nutGet ++ (signed ++ 47 :: (name ++ behindName))) =
      some (nutGet.length + (signed.length + (name.length + 1)) + 56) := by
    have hfront : 13 ∉ nutGet ++ (signed ++ 47 :: name) := by
      have hget : (13 : UInt8) ∉ nutGet := by decide
      have hindex : (13 : UInt8) ∉ signed :=
        hsigned ▸ notMem_signedBytes (by decide) (by decide)
      simp [hget, hindex, hcr]
    have h := separatorAt_append_left hfront separatorAt_behindName
    rw [List.length_append, List.length_append, List.length_cons] at h
    simpa using h
  have hrest : (nutGet ++ (signed ++ 47 :: (name ++ behindName))).drop
      (nutGet.length + (signed.length + (name.length + 1)) + 56 + 4) = [] := by
    apply List.drop_eq_nil_of_le
    have hbehind : behindName.length = 60 := rfl
    simp only [List.length_append, List.length_cons, hbehind]
    omega
  have hlineLen : nutGet.length + (signed.length + (name.length + 1)) + 56 + 1 - nutGet.length =
      signed.length + 1 + name.length + 57 := by omega
  rw [getRequest_eq buffer index hlen, hsigned]
  unfold nutCheckUpload
  rw [if_neg (by simp), if_neg (fun h => h (List.prefix_append _ _)), hsep]
  dsimp only
  rw [List.drop_left, hlineLen, hrest]
  by_cases hindex : index.toNat < 2 ^ 31
  · have hint : index.toBitVec.toInt = index.toNat := by
      rw [BitVec.toInt_eq_toNat_cond]
      simp only [UInt32.toNat_toBitVec]
      omega
    rw [hint, signedBytes_of_nonneg (by omega), Int.toNat_natCast] at hsigned
    rw [← hsigned, parseGetLine_digits index.toNat_lt hplain]
    by_cases hempty : name = []
    · rw [if_pos hempty, if_neg (fun h => h.2 hempty)]
    · rw [if_neg hempty, if_pos ⟨hindex, hempty⟩]
      dsimp only
      rw [UInt32.ofNat_toNat]
  · have hint : index.toBitVec.toInt < 0 := by
      have hlt := index.toNat_lt
      rw [BitVec.toInt_eq_toNat_cond]
      simp only [UInt32.toNat_toBitVec]
      omega
    rw [signedBytes_of_neg hint] at hsigned
    rw [← hsigned, List.cons_append, parseGetLine_minus _ (by omega), if_neg (fun h => hindex h.1)]

/-! ## The name asked for -/

theorem originalName_savedAs (cfg : TransferConfig) (file : List UInt8) :
    originalName (savedAs cfg file) =
      (file.reverse.takeWhile (fun c => c ≠ 47 ∧ c ≠ 92)).reverse := by
  have hslash : ¬ decide ((47 : UInt8) ≠ 47 ∧ (47 : UInt8) ≠ 92) = true := by decide
  unfold originalName savedAs
  congr 1
  rw [List.reverse_append, List.reverse_cons, List.append_assoc, List.singleton_append,
    List.takeWhile_append]
  split_ifs with hall
  · rw [List.takeWhile_cons, if_neg hslash, List.append_nil]
    exact (List.takeWhile_prefix _).eq_of_length hall |>.symm
  · rfl

/-- The name that is asked for. -/
def GetRoute.name (route : GetRoute) (file : List UInt8) : List UInt8 :=
  match route with
  | .nutInitTransfer => file
  | .nutCheckGiven cfg => originalName (savedAs cfg file)

theorem GetRoute.request_eq (route : GetRoute) (buffer : Socket.PrintBuffer) (record : NutRecord) :
    route.request buffer record = getRequest buffer record.index (route.name record.file) := by
  cases route with
  | nutInitTransfer => rfl
  | nutCheckGiven cfg => rfl

/-- The name is cut behind a backslash only. -/
def GetRoute.Keeps (route : GetRoute) (file : List UInt8) : Prop :=
  match route with
  | .nutInitTransfer => True
  | .nutCheckGiven _ => 92 ∉ file

theorem GetRoute.name_suffix (route : GetRoute) (file : List UInt8) : route.name file <:+ file := by
  cases route with
  | nutInitTransfer => exact List.suffix_refl _
  | nutCheckGiven cfg =>
    rw [GetRoute.name, originalName_savedAs, ← List.reverse_prefix, List.reverse_reverse]
    exact List.takeWhile_prefix _

theorem GetRoute.name_eq_iff (route : GetRoute) {file : List UInt8} (hslash : 47 ∉ file) :
    route.name file = file ↔ route.Keeps file := by
  cases route with
  | nutInitTransfer => exact iff_of_true rfl trivial
  | nutCheckGiven cfg =>
    rw [GetRoute.name, GetRoute.Keeps, originalName_savedAs, List.reverse_eq_iff,
      List.takeWhile_eq_self_iff]
    constructor
    · intro h hback
      exact absurd (h 92 (List.mem_reverse.mpr hback)) (by decide)
    · intro h c hc
      have hmem := List.mem_reverse.mp hc
      exact decide_eq_true ⟨fun h47 => hslash (h47 ▸ hmem), fun h92 => h (h92 ▸ hmem)⟩

theorem isPrint_canonized {file : List UInt8} : ∀ c ∈ nutCanonizeFile file, isPrint c = true := by
  intro c hc
  obtain ⟨d, -, rfl⟩ := List.mem_map.mp hc
  split_ifs with hprint
  · exact hprint
  · decide

theorem length_nutCanonizeFile (file : List UInt8) : (nutCanonizeFile file).length = file.length :=
  List.length_map _

/-- The name that is asked for is that of the file if nothing of it was replaced or cut off. -/
theorem GetRoute.name_canonized_iff (route : GetRoute) {file : List UInt8} (hslash : 47 ∉ file) :
    route.name (nutCanonizeFile file) = file ↔
      (∀ c ∈ file, isPrint c = true) ∧ route.Keeps file := by
  rw [← nutCanonizeFile_eq_iff]
  constructor
  · intro h
    -- nothing was cut off, for the lengths are the same
    have hlen : (route.name (nutCanonizeFile file)).length = (nutCanonizeFile file).length := by
      rw [h, length_nutCanonizeFile]
    have hwhole := (route.name_suffix (nutCanonizeFile file)).eq_of_length hlen
    have hcanon : nutCanonizeFile file = file := hwhole.symm.trans h
    refine ⟨hcanon, ?_⟩
    rw [hcanon] at hwhole
    exact (route.name_eq_iff hslash).mp hwhole
  · intro h
    rw [h.1]
    exact (route.name_eq_iff hslash).mpr h.2

/-! ## The entry found -/

/-- No file added later has the same index and the same name. -/
def Latest (files : List NutFile) (entry : NutFile) : Prop :=
  ∃ later earlier, files = later ++ entry :: earlier ∧
    ∀ other ∈ later, ¬ (other.index = entry.index ∧ other.file = entry.file)

theorem nutGetDatabase_iff {files : List NutFile} {name : List UInt8} {index : UInt32}
    {entry : NutFile} (hname : 0 ∉ name) :
    nutGetDatabase files (some name) index = some entry ↔
      entry.index = index ∧ entry.file = name ∧ Latest files entry := by
  unfold nutGetDatabase Latest
  rw [List.find?_eq_some_iff_append]
  simp only [Option.all_some, cString_eq_self hname, decide_eq_true_eq, Bool.not_eq_true',
    decide_eq_false_iff_not]
  constructor
  · rintro ⟨⟨hindex, hfile⟩, later, earlier, hsplit, hlater⟩
    refine ⟨hindex, hfile, later, earlier, hsplit, fun other hother => ?_⟩
    rw [hindex, hfile]
    exact hlater other hother
  · rintro ⟨hindex, hfile, later, earlier, hsplit, hlater⟩
    refine ⟨⟨hindex, hfile⟩, later, earlier, hsplit, fun other hother => ?_⟩
    rw [← hindex, ← hfile]
    exact hlater other hother

/-- The indices count the files, and the names are those of directory entries. -/
theorem readDatabase_spec (found : List (DirName × Nat)) :
    (readDatabase found).dbFiles = UInt32.ofNat found.length ∧
      (∀ entry ∈ (readDatabase found).files, IsDirName entry.file) ∧
      (found.length ≤ 2 ^ 32 →
        ∀ entry ∈ (readDatabase found).files, entry.index.toNat < found.length) := by
  induction found using List.reverseRecOn with
  | nil => exact ⟨rfl, by simp [readDatabase], by simp [readDatabase]⟩
  | append_singleton found file ih =>
    obtain ⟨hcount, hnames, hindices⟩ := ih
    have hread : readDatabase (found ++ [file]) = nutAddDatabase (readDatabase found) file :=
      foldl_concat nutAddDatabase _ found file
    rw [hread, List.length_append, List.length_singleton]
    refine ⟨?_, ?_, ?_⟩
    · rw [nutAddDatabase, hcount, UInt32.ofNat_add]
      rfl
    · intro entry hentry
      rcases List.mem_cons.mp hentry with rfl | hentry
      · exact file.1.isDirName
      · exact hnames entry hentry
    · intro hmany entry hentry
      rcases List.mem_cons.mp hentry with rfl | hentry
      · change (readDatabase found).dbFiles.toNat < found.length + 1
        rw [hcount, UInt32.toNat_ofNat']
        have hle := Nat.mod_le found.length (2 ^ 32)
        omega
      · have hlt := hindices (by omega) entry hentry
        omega

/-- As long as the indices have not wrapped around every file is found. -/
theorem latest_readDatabase {found : List (DirName × Nat)} (hmany : found.length ≤ 2 ^ 32) :
    ∀ entry ∈ (readDatabase found).files, Latest (readDatabase found).files entry := by
  induction found using List.reverseRecOn with
  | nil => simp [readDatabase]
  | append_singleton found file ih =>
    rw [List.length_append, List.length_singleton] at hmany
    obtain ⟨hcount, -, hindices⟩ := readDatabase_spec found
    have hread : readDatabase (found ++ [file]) = nutAddDatabase (readDatabase found) file :=
      foldl_concat nutAddDatabase _ found file
    rw [hread]
    intro entry hentry
    rcases List.mem_cons.mp hentry with rfl | hentry
    · exact ⟨[], (readDatabase found).files, rfl, by simp⟩
    · obtain ⟨later, earlier, hsplit, hlater⟩ := ih (by omega) entry hentry
      have hlt := hindices (by omega) entry hentry
      refine ⟨_ :: later, earlier, congrArg _ hsplit, fun other hother => ?_⟩
      rcases List.mem_cons.mp hother with rfl | hother
      · rintro ⟨hindex, -⟩
        have hnat := congrArg UInt32.toNat hindex
        change (readDatabase found).dbFiles.toNat = entry.index.toNat at hnat
        rw [hcount, UInt32.toNat_ofNat', Nat.mod_eq_of_lt (by omega)] at hnat
        omega
      · exact hlater other hother

/-! ## Requests and files -/

/-- The server finds the file that it announced exactly if all bytes of its name are printable,
its index is not printed as a negative number, and, for a request on the connection of a push
request, the name has no backslash. -/
theorem getRequest_iff (found : List (DirName × Nat)) {entry : NutFile}
    (hentry : entry ∈ (readDatabase found).files) (route : GetRoute)
    (buffer : Socket.PrintBuffer) (behind : Int) :
    Resolves (readDatabase found) route buffer entry behind ↔
      (∀ c ∈ entry.file, isPrint c = true) ∧ entry.index.toNat < 2 ^ 31 ∧
        route.Keeps entry.file ∧ Latest (readDatabase found).files entry := by
  have hdir := (readDatabase_spec found).2.1 entry hentry
  have hsuffix := route.name_suffix (nutCanonizeFile entry.file)
  have hprint : ∀ c ∈ route.name (nutCanonizeFile entry.file), isPrint c = true :=
    fun c hc => isPrint_canonized c (hsuffix.subset hc)
  have hlen : (route.name (nutCanonizeFile entry.file)).length ≤ 255 := by
    have hle := hsuffix.length_le
    have hmax := hdir.length_le
    rw [length_nutCanonizeFile] at hle
    omega
  have hzero : 0 ∉ route.name (nutCanonizeFile entry.file) :=
    fun h => absurd (hprint 0 h) (by decide)
  have hname := route.name_canonized_iff hdir.noSlash
  unfold Resolves
  rw [route.request_eq]
  dsimp only [announced]
  rw [nutCheckUpload_request _ buffer _ hlen hprint]
  constructor
  · rintro ⟨rest, hrest⟩
    split_ifs at hrest with hreads
    split at hrest
    · exact nomatch hrest
    · next other hother =>
      obtain ⟨rfl, -⟩ := Upload.found.inj hrest
      obtain ⟨-, hfile, hlatest⟩ := (nutGetDatabase_iff hzero).mp hother
      obtain ⟨hall, hkeeps⟩ := hname.mp hfile.symm
      exact ⟨hall, hreads.1, hkeeps, hlatest⟩
  · rintro ⟨hall, hindex, hkeeps, hlatest⟩
    have hfile := hname.mpr ⟨hall, hkeeps⟩
    have hget := (nutGetDatabase_iff hzero).mpr ⟨rfl, hfile.symm, hlatest⟩
    have hne : route.name (nutCanonizeFile entry.file) ≠ [] := by
      rw [hfile]
      exact hdir.ne_nil
    refine ⟨[], ?_⟩
    rw [if_pos ⟨hindex, hne⟩, hget]

/-- A name of one byte. -/
def shortName (c : UInt8) (hzero : 0 ≠ c) (hslash : 47 ≠ c) : DirName where
  bytes := [c]
  noZero := by simpa using hzero
  isDirName := ⟨by simp, by simpa using hslash, by simp⟩

theorem getRequest_printable :
    Resolves (readDatabase [(shortName 97 (by decide) (by decide), 1)]) .nutInitTransfer
      ⟨List.replicate 2048 0, List.length_replicate⟩ ⟨0, 1, [97], by decide⟩ 0 := by
  have hentry : (⟨0, 1, [97], by decide⟩ : NutFile) ∈
      (readDatabase [(shortName 97 (by decide) (by decide), 1)]).files :=
    List.mem_singleton.mpr rfl
  exact (getRequest_iff _ hentry .nutInitTransfer _ 0).mpr
    ⟨List.forall_mem_singleton.mpr rfl, by decide, trivial,
      latest_readDatabase (by decide) _ hentry⟩

/-- A file whose name is one byte of another alphabet. -/
theorem getRequest_latin1 :
    ¬ ∀ (found : List (DirName × Nat)) (entry : NutFile), entry ∈ (readDatabase found).files →
      ∀ (route : GetRoute) (buffer : Socket.PrintBuffer) (behind : Int),
        Resolves (readDatabase found) route buffer entry behind := by
  intro h
  have hentry : (⟨0, 1, [233], by decide⟩ : NutFile) ∈
      (readDatabase [(shortName 233 (by decide) (by decide), 1)]).files :=
    List.mem_singleton.mpr rfl
  obtain ⟨rest, hrest⟩ := h _ _ hentry .nutInitTransfer
    ⟨List.replicate 2048 0, List.length_replicate⟩ 0
  rw [GetRoute.request_eq] at hrest
  -- the name asked for is an underscore
  have hname : GetRoute.nutInitTransfer.name (nutCanonizeFile [233]) = [95] := by decide
  dsimp only [announced] at hrest
  rw [hname, nutCheckUpload_request _ _ _ (by decide) (List.forall_mem_singleton.mpr rfl),
    if_pos (by decide)] at hrest
  exact nomatch hrest

end Serveez.Nut
