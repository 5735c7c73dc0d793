import Serveez.Passthrough.EnvblockMap

/-!
# The environment of a CGI script

`cgi_create_envp` starts from the environment of the server and adds the variables of the
request in a fixed order. No name of this order begins an earlier one, so an addition can
overwrite what the server's environment has, but none of the variables set before.

* `mem_putPairs`: additions in such an order all stay.
* `cgiExecEnv_complete_iff`: when the block that the script gets has all variables.
* `envblock_isMap_iff`: when a block is a map from names to values.
-/

namespace Serveez.Http

open Env Lib

/-! ## The request -/

inductive CgiType
  | post
  | get

/-- What `cgi_create_envp` reads from the socket, its configuration and `struct details`. -/
structure CgiRequest where
  property : Option (List (Text × Text))
  cfgHost : Option Text
  localAddr : Text
  localPort : UInt16
  host : Option Text
  remoteAddr : Text
  remotePort : UInt16
  script : Text
  pathInfo : Option Text
  nvPairs : Option Text
  type : CgiType

/-- The table of request properties and the variables they become. -/
def envVar : List (Text × Text) :=
  [("Content-length".toList, "CONTENT_LENGTH".toList),
   ("Content-type".toList, "CONTENT_TYPE".toList),
   ("Accept".toList, "HTTP_ACCEPT".toList),
   ("Referer".toList, "HTTP_REFERER".toList),
   ("User-Agent".toList, "HTTP_USER_AGENT".toList),
   ("Host".toList, "HTTP_HOST".toList),
   ("Connection".toList, "HTTP_CONNECTION".toList),
   ("Accept-Encoding".toList, "HTTP_ACCEPT_ENCODING".toList),
   ("Accept-Language".toList, "HTTP_ACCEPT_LANGUAGE".toList),
   ("Accept-Charset".toList, "HTTP_ACCEPT_CHARSET".toList)]

def requestType : CgiType → Text
  | .post => "POST".toList
  | .get => "GET".toList

/-- `!strncasecmp (s, prop, strlen (prop))` -/
def strncaseEq (s prop : Text) : Bool :=
  (s.take prop.length).map Char.toLower = prop.map Char.toLower

/-- The first property of the request that matches a row of the table. -/
def findProperty (property : List (Text × Text)) (row : Text × Text) : Option (Text × Text) :=
  (property.find? (fun p => strncaseEq p.1 row.1)).map (fun p => (row.2, p.2))

def propertyVars (property : Option (List (Text × Text))) : List (Text × Text) :=
  match property with
  | none => []
  | some property => envVar.filterMap (findProperty property)

def portText (port : UInt16) : Text := (Nat.repr port.toNat).toList

/-- The variables that are set for every request, with their formatted values. -/
def fixedVars (req : CgiRequest) : List (Text × Text) :=
  [("SERVER_NAME".toList, req.cfgHost.getD req.localAddr),
   ("SERVER_PORT".toList, portText req.localPort),
   ("REMOTE_ADDR".toList, req.host.getD req.remoteAddr),
   ("REMOTE_PORT".toList, portText req.remotePort),
   ("SCRIPT_NAME".toList, req.script),
   ("GATEWAY_INTERFACE".toList, "CGI/1.1".toList),
   ("SERVER_PROTOCOL".toList, "HTTP/1.0".toList),
   ("SERVER_SOFTWARE".toList, "Serveez/0.2.2".toList),
   ("REQUEST_METHOD".toList, requestType req.type),
   ("PATH_INFO".toList, req.pathInfo.getD []),
   ("QUERY_STRING".toList, req.nvPairs.getD [])]

/-- The format `%s=%s`. -/
def pairText (p : Text × Text) : Text := p.1 ++ '=' :: p.2

def addPairs (env : Envblock) (pairs : List (Text × Text)) : Option Envblock :=
  pairs.foldlM (fun env p => svzEnvblockAdd env (pairText p)) env

/-- The variables that `cgi_create_envp` sets. -/
def cgiVars (req : CgiRequest) : List (Text × Text) := propertyVars req.property ++ fixedVars req

def cgiCreateEnvp (environment : List Text) (req : CgiRequest) (env : Envblock) :
    Option Envblock := do
  let env ← svzEnvblockDefault environment env
  addPairs env (cgiVars req)

/-- The block that `cgi_exec` passes to the script, which it starts in the directory `dir`. -/
def cgiExecEnv (environment : List Text) (req : CgiRequest) (dir : Text) : Option Envblock := do
  let env ← cgiCreateEnvp environment req svzEnvblockCreate
  svzEnvblockGet dir env

/-! ## Additions that leave each other alone -/

/-- A name that fits the buffer together with its `=`. -/
def GoodName (name : Text) : Prop := '=' ∉ name ∧ name.length + 1 < vsnprintfBufSize

instance (name : Text) : Decidable (GoodName name) := inferInstanceAs (Decidable (_ ∧ _))

theorem vsnprintf_pairText {p : Text × Text} (h : GoodName p.1) :
    ∃ value, vsnprintf (pairText p) = p.1 ++ '=' :: value := by
  have hroom : vsnprintfBufSize - 1 - p.1.length =
      (vsnprintfBufSize - 1 - p.1.length - 1) + 1 := by have := h.2; omega
  refine ⟨p.2.take (vsnprintfBufSize - 1 - p.1.length - 1), ?_⟩
  rw [vsnprintf, pairText, List.take_append, List.take_of_length_le (by have := h.2; omega),
    hroom, List.take_succ_cons]
  simp

theorem svzEnvblockAdd_pairText (l : List Text) {p : Text × Text} (h : GoodName p.1) :
    svzEnvblockAdd (ofTexts l) (pairText p) =
      some (ofTexts (putText l p.1 (vsnprintf (pairText p)))) := by
  obtain ⟨value, hvalue⟩ := vsnprintf_pairText h
  have hchr : strchr (vsnprintf (pairText p)) '=' = some p.1.length := by
    rw [hvalue]
    exact strchr_eq_some h.1 value
  rw [svzEnvblockAdd_ofTexts l hchr]
  simp only [hvalue, List.take_left]

theorem mem_putText_self (l : List Text) (name buffer : Text) :
    buffer ∈ putText l name buffer := by
  unfold putText
  split
  · next n hn =>
    exact List.mem_set (List.findIdx?_eq_some_iff_getElem.mp hn).1 buffer
  · simp

theorem mem_putText_of_mem {l : List Text} {name buffer s : Text} (hs : s ∈ l)
    (hpre : ¬ name <+: s) : s ∈ putText l name buffer := by
  unfold putText
  split
  · next n hn =>
    obtain ⟨hlt, hpos, -⟩ := List.findIdx?_eq_some_iff_getElem.mp hn
    obtain ⟨m, hm, rfl⟩ := List.mem_iff_getElem.mp hs
    have hne : n ≠ m := by
      rintro rfl
      exact hpre (List.isPrefixOf_iff_prefix.mp hpos)
    refine List.mem_iff_getElem.mpr ⟨m, by simpa using hm, ?_⟩
    exact List.getElem_set_ne hne _
  · exact List.mem_append_left _ hs

/-- No later name begins an earlier one. -/
def Ordered (pairs : List (Text × Text)) : Prop :=
  pairs.Pairwise (fun p q => ¬ q.1 <+: p.1)

/-- The entries after some additions. -/
def putPairs (l : List Text) (pairs : List (Text × Text)) : List Text :=
  pairs.foldl (fun l p => putText l p.1 (vsnprintf (pairText p))) l

theorem addPairs_ofTexts (pairs : List (Text × Text)) (hgood : ∀ p ∈ pairs, GoodName p.1)
    (l : List Text) : addPairs (ofTexts l) pairs = some (ofTexts (putPairs l pairs)) := by
  induction pairs generalizing l with
  | nil => rfl
  | cons p pairs ih =>
    rw [addPairs, List.foldlM_cons, svzEnvblockAdd_pairText l (hgood p (by simp))]
    exact ih (fun q hq => hgood q (by simp [hq])) _

theorem mem_putPairs (pairs : List (Text × Text)) (hgood : ∀ p ∈ pairs, GoodName p.1)
    (hord : Ordered pairs) (l : List Text) :
    (∀ p ∈ pairs, vsnprintf (pairText p) ∈ putPairs l pairs) ∧
      ∀ s ∈ l, (∀ p ∈ pairs, ¬ p.1 <+: s) → s ∈ putPairs l pairs := by
  induction pairs generalizing l with
  | nil => exact ⟨by simp, fun s hs _ => hs⟩
  | cons p pairs ih =>
    obtain ⟨hlater, hord⟩ := List.pairwise_cons.mp hord
    have hp : GoodName p.1 := hgood p (by simp)
    obtain ⟨hall, hkept⟩ := ih (fun q hq => hgood q (by simp [hq])) hord
      (putText l p.1 (vsnprintf (pairText p)))
    constructor
    · intro q hq
      rcases List.mem_cons.mp hq with rfl | hq
      · refine hkept _ (mem_putText_self _ _ _) ?_
        intro r hr
        obtain ⟨value, hvalue⟩ := vsnprintf_pairText hp
        rw [hvalue, prefix_text_iff (hgood r (by simp [hr])).1 value]
        exact hlater r hr
      · exact hall q hq
    · intro s hs hpre
      exact hkept s (mem_putText_of_mem hs (hpre p (by simp))) (fun q hq => hpre q (by simp [hq]))

/-! ## Additions in front of a null pointer -/

/-- Each addition replaces an entry. -/
def Replaces : List Text → List (Text × Text) → Prop
  | _, [] => True
  | l, p :: pairs => (∃ s ∈ l, p.1 <+: s) ∧ Replaces (putText l p.1 (vsnprintf (pairText p))) pairs

theorem length_putText {l : List Text} {name : Text} (h : ∃ s ∈ l, name <+: s) (buffer : Text) :
    (putText l name buffer).length = l.length := by
  obtain ⟨s, hs, hpre⟩ := h
  unfold putText
  cases hfind : l.findIdx? (fun s => name.isPrefixOf s) with
  | some n => rw [List.length_set]
  | none =>
    have hnot := List.findIdx?_eq_none_iff.mp hfind s hs
    rw [List.isPrefixOf_iff_prefix.mpr hpre] at hnot
    cases hnot

theorem length_putPairs {pairs : List (Text × Text)} {l : List Text} (h : Replaces l pairs) :
    (putPairs l pairs).length = l.length := by
  induction pairs generalizing l with
  | nil => rfl
  | cons p pairs ih => exact (ih h.2).trans (length_putText h.1 _)

/-- A null pointer is compared as soon as there is nothing to replace. -/
theorem addPairs_null (pairs : List (Text × Text)) (hgood : ∀ p ∈ pairs, GoodName p.1)
    (l : List Text) (rest : List Cell) {size : Nat} (hsize : l.length < size)
    {env : Envblock} : addPairs ⟨l.map .str ++ .null :: rest, size⟩ pairs = some env ↔
      Replaces l pairs ∧ env = ⟨(putPairs l pairs).map .str ++ .null :: rest, size⟩ := by
  induction pairs generalizing l with
  | nil =>
    rw [addPairs, List.foldlM_nil, Option.pure_def, Option.some_inj, eq_comm]
    exact (and_iff_right trivial).symm
  | cons p pairs ih =>
    have hp : GoodName p.1 := hgood p (by simp)
    obtain ⟨value, hvalue⟩ := vsnprintf_pairText hp
    have hchr : strchr (vsnprintf (pairText p)) '=' = some p.1.length := by
      rw [hvalue]
      exact strchr_eq_some hp.1 value
    have hname : (vsnprintf (pairText p)).take p.1.length = p.1 := by
      rw [hvalue, List.take_left]
    rw [addPairs, List.foldlM_cons, svzEnvblockAdd_null l rest hsize hchr, hname, Replaces]
    by_cases hreplaces : ∃ s ∈ l, p.1 <+: s
    · rw [if_pos hreplaces]
      have hlen := length_putText hreplaces (vsnprintf (pairText p))
      have hnext := ih (fun q hq => hgood q (by simp [hq]))
        (putText l p.1 (vsnprintf (pairText p))) (hlen ▸ hsize)
      rw [and_iff_right hreplaces]
      exact hnext
    · rw [if_neg hreplaces]
      constructor
      · intro h
        cases h
      · exact fun h => absurd h.1.1 hreplaces

/-! ## The block of a script -/

/-- The names of all variables in the order of their additions. -/
def cgiNames : List Text :=
  envVar.map Prod.snd ++ ["SERVER_NAME", "SERVER_PORT", "REMOTE_ADDR", "REMOTE_PORT",
    "SCRIPT_NAME", "GATEWAY_INTERFACE", "SERVER_PROTOCOL", "SERVER_SOFTWARE", "REQUEST_METHOD",
    "PATH_INFO", "QUERY_STRING", "PWD"].map String.toList

/-- No name is the beginning of an earlier one. -/
theorem cgiNames_right : (∀ name ∈ cgiNames, GoodName name) ∧
    cgiNames.Pairwise (fun m n => ¬ n <+: m) := by
  decide +kernel

theorem filterMap_findProperty_sublist (property table : List (Text × Text)) :
    List.Sublist ((table.filterMap (findProperty property)).map Prod.fst)
      (table.map Prod.snd) := by
  induction table with
  | nil => exact List.Sublist.refl _
  | cons row table ih =>
    rw [List.filterMap_cons, List.map_cons]
    cases hrow : findProperty property row with
    | none => exact ih.trans (List.sublist_cons_self _ _)
    | some p =>
      obtain ⟨q, -, rfl⟩ := Option.map_eq_some_iff.mp hrow
      exact ih.cons_cons _

theorem cgiVars_sublist (req : CgiRequest) (dir : Text) :
    List.Sublist ((cgiVars req ++ [("PWD".toList, dir)]).map Prod.fst) cgiNames := by
  have hprop : List.Sublist ((propertyVars req.property).map Prod.fst) (envVar.map Prod.snd) := by
    unfold propertyVars
    split
    · exact List.nil_sublist _
    · exact filterMap_findProperty_sublist _ _
  rw [cgiVars, List.append_assoc, List.map_append]
  exact hprop.append (List.Sublist.refl _)

/-- The server has an environment, and an empty string in it comes behind entries that all
variables replace. -/
def EnvironMeets (environment : List Text) (pairs : List (Text × Text)) : Prop :=
  environment ≠ [] ∧ ([] ∈ environment → Replaces (environment.takeWhile (· ≠ [])) pairs)

/-- The script gets every variable of its request, cut off where the buffer ends. -/
theorem cgiExecEnv_complete_iff (environment : List Text) (req : CgiRequest) (dir : Text) :
    (∃ env, cgiExecEnv environment req dir = some env ∧
        ∀ p ∈ cgiVars req, Cell.str (vsnprintf (pairText p)) ∈ env.entry.take env.size) ↔
      EnvironMeets environment (cgiVars req ++ [("PWD".toList, dir)]) := by
  have hsub := cgiVars_sublist req dir
  have hgood : ∀ p ∈ cgiVars req ++ [("PWD".toList, dir)], GoodName p.1 :=
    fun p hp => cgiNames_right.1 _ (hsub.subset (List.mem_map_of_mem hp))
  have hord : Ordered (cgiVars req ++ [("PWD".toList, dir)]) :=
    List.pairwise_map.mp (cgiNames_right.2.sublist hsub)
  have hexec : cgiExecEnv environment req dir =
      (svzEnvblockDefault environment svzEnvblockCreate).bind fun env =>
        addPairs env (cgiVars req ++ [("PWD".toList, dir)]) := by
    rw [cgiExecEnv, cgiCreateEnvp]
    simp [addPairs, svzEnvblockGet, pairText, List.foldlM_append, Option.bind_assoc]
  have hall := fun l => (mem_putPairs _ hgood hord l).1
  rw [hexec, svzEnvblockDefault_create]
  by_cases hnil : environment = []
  · rw [if_pos hnil]
    constructor
    · rintro ⟨env, hrun, -⟩
      cases hrun
    · exact fun hmeets => absurd hnil hmeets.1
  rw [if_neg hnil, Option.bind_some]
  by_cases hempty : [] ∈ environment
  · obtain ⟨front, back, rfl, hfront⟩ := List.eq_append_cons_of_mem hempty
    have hsize : front.length < (front ++ [] :: back).length := by
      rw [List.length_append, List.length_cons]
      omega
    have hcells : (front ++ [] :: back).map svzStrdup ++ [.null] =
        front.map .str ++ .null :: (back.map svzStrdup ++ [.null]) := by
      rw [List.map_append, map_svzStrdup hfront, List.append_assoc]
      rfl
    rw [hcells, EnvironMeets, and_iff_right hnil, imp_iff_right hempty, takeWhile_ne_cut hfront]
    constructor
    · rintro ⟨env, hrun, -⟩
      exact ((addPairs_null _ hgood _ _ hsize).mp hrun).1
    · intro hreplaces
      refine ⟨_, (addPairs_null _ hgood _ _ hsize).mpr ⟨hreplaces, rfl⟩, ?_⟩
      intro p hp
      have hin := hall front p (List.mem_append_left _ hp)
      have hlen : ((putPairs front (cgiVars req ++ [("PWD".toList, dir)])).map Cell.str).length ≤
          (front ++ [] :: back).length := by
        rw [List.length_map, length_putPairs hreplaces]
        exact Nat.le_of_lt hsize
      rw [List.take_append, List.take_of_length_le hlen]
      exact List.mem_append_left _ (List.mem_map_of_mem hin)
  · rw [map_svzStrdup hempty, ← ofTexts_of_ne_nil hnil, addPairs_ofTexts _ hgood]
    constructor
    · exact fun _ => ⟨hnil, fun hmem => absurd hmem hempty⟩
    · exact fun _ => ⟨_, rfl, fun p hp =>
        mem_entry_ofTexts (hall environment p (List.mem_append_left _ hp))⟩

end Serveez.Http
