import Serveez.Http.DocumentRoot
import Serveez.Lib.Cut

/-!
# The parts of a CGI request

`check_cgi` goes through a request that begins with the CGI url: one character that it does not look
at, the name of the script up to a slash or a question mark, a path up to a question mark, and the
rest. The file is the name behind the directory of the scripts.

* `detailsOf_cons`: the parts of a request that goes on with a slash.
* `cgiUrl_right_iff`: when the parts are the request and the file is one of the directory.
* `detailsOf_filename`: the file is the one that a request of this kind is known to open.

A request is the list of its bytes without the terminator.
-/

namespace Serveez.Http.CgiUrl

open Lib

/-- `struct details` -/
structure Details where
  script : Path
  filename : Path
  pathInfo : Option Path
  nvPairs : Option Path

/-- What does not end the name of a script. -/
def InName (c : UInt8) : Prop := c ≠ question ∧ c ≠ slash

instance (c : UInt8) : Decidable (InName c) := inferInstanceAs (Decidable (_ ∧ _))

/-- The path at `p`, if there is one. -/
def pathInfoAt (p : Path) : Option Path :=
  if p.head? = some slash then some (p.takeWhile (· ≠ question)) else none

/-- What is behind the path at `p`. -/
def behindPath (p : Path) : Path :=
  if p.head? = some slash then p.dropWhile (· ≠ question) else p

/-- The query at `p`, if there is one. -/
def nvPairsAt : Path → Option Path
  | [] => none
  | c :: p => if c = question then some p else none

/-- The parts of a request. With nothing behind the CGI url the scan begins behind the terminator,
and there is no result. -/
def detailsOf (cfg : HttpConfig) (request : Path) : Option Details :=
  match request.drop cfg.cgiurl.length with
  | [] => none
  | c :: p =>
    let fn := c :: p.takeWhile (InName ·)
    let p := p.dropWhile (InName ·)
    some {
      script := request.take (cfg.cgiurl.length + fn.length)
      filename := cfg.cgidir ++ fn
      pathInfo := pathInfoAt p
      nvPairs := nvPairsAt (behindPath p) }

/-- What `check_cgi` does with a request: the details that it makes, if it is one for the CGI url,
and whether the file of them can be run. -/
structure Check where
  details : Option Details
  accepted : Bool

/-- A regular file that may be read and executed. -/
def Runnable (fs : FileSystem) (filename : Path) : Bool :=
  fs.openable filename && fs.executable filename

/-- `check_cgi`, without a result if it reads behind the terminator. -/
def checkCgi (fs : FileSystem) (cfg : HttpConfig) (request : Path) : Option Check :=
  if ¬ cfg.cgiurl <+: request then some ⟨none, false⟩
  else (detailsOf cfg request).map fun det => ⟨some det, Runnable fs det.filename⟩

/-! ## What the parts should be -/

def queryText (nvPairs : Option Path) : Path :=
  match nvPairs with
  | none => []
  | some query => question :: query

/-- The parts make up the request, and the file is one component of it in the directory. -/
structure Splits (cfg : HttpConfig) (request : Path) (det : Details) : Prop where
  whole : det.script ++ (det.pathInfo.getD [] ++ queryText det.nvPairs) = request
  path : ∀ path, det.pathInfo = some path → path.head? = some slash
  file : ∃ component, component ≠ [] ∧ slash ∉ component ∧ component ≠ dots ∧
    det.script = cfg.cgiurl ++ slash :: component ∧
    det.filename = cfg.cgidir ++ slash :: component

/-- A request that begins with the CGI url and goes on with a slash is split as it should be, one
that goes on with something else is none for a script. -/
structure Right (fs : FileSystem) (cfg : HttpConfig) (rest : Path) : Prop where
  inside : (checkCgi fs cfg (cfg.cgiurl ++ rest)).isSome
  script : rest.head? = some slash → ∃ det accepted,
    checkCgi fs cfg (cfg.cgiurl ++ rest) = some ⟨some det, accepted⟩ ∧
      Splits cfg (cfg.cgiurl ++ rest) det
  other : rest.head? ≠ some slash → ∀ check,
    checkCgi fs cfg (cfg.cgiurl ++ rest) = some check → check.accepted = false

/-- The name behind the first character of the rest of a request. -/
def component (rest : Path) : Path := (rest.drop 1).takeWhile (InName ·)

/-- There is something behind the CGI url: a slash and a name that is not empty and not `..`, or
something that is not the name of a script. -/
structure Meets (fs : FileSystem) (cfg : HttpConfig) (rest : Path) : Prop where
  more : rest ≠ []
  named : rest.head? = some slash → component rest ≠ [] ∧ component rest ≠ dots
  other : rest.head? ≠ some slash →
    Runnable fs (cfg.cgidir ++ (rest.take 1 ++ component rest)) = false

/-! ## The parts -/

variable {fs : FileSystem} {cfg : HttpConfig} {rest : Path}

theorem checkCgi_url (fs : FileSystem) (cfg : HttpConfig) (rest : Path) :
    checkCgi fs cfg (cfg.cgiurl ++ rest) =
    (detailsOf cfg (cfg.cgiurl ++ rest)).map fun det => ⟨some det, Runnable fs det.filename⟩ :=
  if_neg (fun hnot => hnot (List.prefix_append _ _))

theorem queryText_dropWhile (p : Path) :
    queryText (nvPairsAt (p.dropWhile (· ≠ question))) = p.dropWhile (· ≠ question) := by
  cases hdrop : p.dropWhile (· ≠ question) with
  | nil => rfl
  | cons c t =>
    have hne : ¬ c ≠ question := not_of_dropWhile (P := (· ≠ question)) hdrop
    have hc : c = question := not_not.mp hne
    rw [hc, nvPairsAt, if_pos rfl]
    rfl

theorem path_query (p : Path) :
    (pathInfoAt (p.dropWhile (InName ·))).getD [] ++
      queryText (nvPairsAt (behindPath (p.dropWhile (InName ·)))) = p.dropWhile (InName ·) := by
  cases hdrop : p.dropWhile (InName ·) with
  | nil => rfl
  | cons c t =>
    have hc : ¬ InName c := not_of_dropWhile hdrop
    by_cases hslash : c = slash
    · have hpath : (c :: t).head? = some slash := congrArg some hslash
      rw [pathInfoAt, behindPath, if_pos hpath, if_pos hpath, queryText_dropWhile, Option.getD_some,
        List.takeWhile_append_dropWhile]
    · have hquestion : c = question := by
        by_contra hne
        exact hc ⟨hne, hslash⟩
      have hpath : (c :: t).head? ≠ some slash := fun h => hslash (Option.some.inj h)
      rw [pathInfoAt, behindPath, if_neg hpath, if_neg hpath, nvPairsAt, if_pos hquestion,
        hquestion]
      rfl

theorem detailsOf_cons (cfg : HttpConfig) (c : UInt8) (p : Path) :
    detailsOf cfg (cfg.cgiurl ++ c :: p) = some {
      script := cfg.cgiurl ++ c :: p.takeWhile (InName ·)
      filename := cfg.cgidir ++ c :: p.takeWhile (InName ·)
      pathInfo := pathInfoAt (p.dropWhile (InName ·))
      nvPairs := nvPairsAt (behindPath (p.dropWhile (InName ·))) } := by
  have htake : (cfg.cgiurl ++ c :: p).take
      (cfg.cgiurl.length + (c :: p.takeWhile (InName ·)).length) =
        cfg.cgiurl ++ c :: p.takeWhile (InName ·) := by
    rw [List.take_length_add_append, List.length_cons, List.take_succ_cons]
    rw [← List.prefix_iff_eq_take.mp (List.takeWhile_prefix _)]
  unfold detailsOf
  rw [List.drop_left]
  dsimp only
  rw [htake]

/-- The file is the one that the path of a request of this kind leads to. -/
theorem detailsOf_filename (cfg : HttpConfig) (c : UInt8) (p : Path) :
    (detailsOf cfg (cfg.cgiurl ++ c :: p)).map Details.filename =
      some (cfg.cgidir ++ scriptOf cfg (cfg.cgiurl ++ c :: p)) := by
  rw [detailsOf_cons, scriptOf, List.drop_left]
  rfl

theorem slash_notMem_component (rest : Path) : slash ∉ component rest := by
  intro hmem
  have hname : InName slash := of_mem_takeWhile hmem
  exact hname.2 rfl

theorem head?_of_pathInfoAt {p path : Path} (h : pathInfoAt p = some path) :
    path.head? = some slash := by
  obtain ⟨hhead, hpath⟩ := Option.ite_none_right_eq_some.mp h
  obtain rfl := Option.some.inj hpath
  obtain ⟨t, rfl⟩ := List.head?_eq_some_iff.mp hhead
  rw [List.takeWhile_cons_of_pos (by decide)]
  rfl

theorem splits_iff {p : Path} {det : Details}
    (hdet : detailsOf cfg (cfg.cgiurl ++ slash :: p) = some det) :
    Splits cfg (cfg.cgiurl ++ slash :: p) det ↔
      component (slash :: p) ≠ [] ∧ component (slash :: p) ≠ dots := by
  rw [detailsOf_cons] at hdet
  obtain rfl := Option.some.inj hdet
  constructor
  · rintro ⟨-, -, name, hnil, -, hdots, hscript, -⟩
    obtain ⟨-, rfl⟩ := List.cons_eq_cons.mp (List.append_cancel_left hscript)
    exact ⟨hnil, hdots⟩
  · rintro ⟨hnil, hdots⟩
    refine ⟨?_, ?_, _, hnil, slash_notMem_component _, hdots, rfl, rfl⟩
    · dsimp only
      rw [path_query, List.append_assoc, List.cons_append, List.takeWhile_append_dropWhile]
    · intro path hpath
      exact head?_of_pathInfoAt hpath

/-- What `check_cgi` does with a request is right just when there is something behind the CGI url,
and it is a slash and a proper name, or no script. -/
theorem cgiUrl_right_iff (fs : FileSystem) (cfg : HttpConfig) (rest : Path) :
    Right fs cfg rest ↔ Meets fs cfg rest := by
  cases rest with
  | nil =>
    refine iff_of_false (fun h => ?_) (fun h => h.more rfl)
    have hnone : checkCgi fs cfg (cfg.cgiurl ++ []) = none := by
      rw [checkCgi_url, detailsOf, List.drop_left]
      rfl
    have hinside := h.inside
    rw [hnone] at hinside
    exact absurd hinside (by decide)
  | cons c p =>
    have hcheck := checkCgi_url fs cfg (c :: p)
    rw [detailsOf_cons, Option.map_some] at hcheck
    constructor
    · intro h
      refine ⟨List.cons_ne_nil c p, fun hhead => ?_, fun hhead => ?_⟩
      · obtain rfl := Option.some.inj hhead
        obtain ⟨det, accepted, hsome, hsplits⟩ := h.script rfl
        have hdet := Option.some.inj (hcheck.symm.trans hsome)
        obtain ⟨hdet, -⟩ := Check.mk.inj hdet
        exact (splits_iff ((detailsOf_cons cfg slash p).trans hdet)).mp hsplits
      · exact h.other hhead _ hcheck
    · intro h
      refine ⟨?_, fun hhead => ?_, fun hhead check hsome => ?_⟩
      · rw [hcheck]
        rfl
      · obtain rfl := Option.some.inj hhead
        exact ⟨_, _, hcheck, (splits_iff (detailsOf_cons cfg slash p)).mpr (h.named rfl)⟩
      · obtain rfl := Option.some.inj (hcheck.symm.trans hsome)
        exact h.other hhead

/-- A request for the CGI url alone is read behind its end. -/
theorem cgiurl_not_right : ¬ Right listedFs docsConfig [] := by
  intro h
  exact absurd h.inside (by decide)

end Serveez.Http.CgiUrl
