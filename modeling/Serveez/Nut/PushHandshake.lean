import Serveez.Nut.Codecs
import Serveez.Nut.QueryHits
import Serveez.Nut.Routing
import Serveez.Nut.Transfers
import Serveez.Socket.Printf

/-!
# The handshake of a push request

A host that cannot be reached is asked by a push request to connect itself. `nut_send_push` keeps
the transfer under a key of the file's index and the host's GUID; the host answers the request
with a `GIV` line (`nut_push_request`), and `nut_check_given` cuts the key out of this line.

* `pushKey_injective`: a key belongs to one index and one GUID.
* `givenLookup_line`: the key found in the line, however the line is cut into reads.
* `nutSendPush_sent`, `keptPushes_run`: the transfers are kept under their own keys.
-/

set_option linter.unusedSectionVars false

namespace Serveez.Nut

open Lib
open Socket (sockPrintf)

/-! ## The shared files -/

/-- A name that `readdir` delivers. -/
structure IsDirName (file : List UInt8) : Prop where
  ne_nil : file ≠ []
  noSlash : 47 ∉ file
  length_le : file.length ≤ 255

/-- `nut_get_database` -/
def nutGetDatabase (database : List NutFile) (file : Option (List UInt8)) (index : UInt32) :
    Option NutFile :=
  database.find? (fun entry =>
    entry.index = index ∧ file.all (fun name => entry.file = cString name))

/-- What `nut_push_request` reads of the configuration. -/
structure PushConfig where
  guid : Codecs.Guid
  uploads : Int
  maxUploads : Int
  database : List NutFile
  named : ∀ entry ∈ database, IsDirName entry.file

/-! ## The two hosts -/

/-- `GIV ` -/
def nutGive : List UInt8 := [71, 73, 86, 32]

/-- `NUT_GIVE "%d:%s/%s\n\n"` -/
def giveText (index : UInt32) (guid file : List UInt8) : List UInt8 :=
  nutGive ++ (signedBytes index.toBitVec.toInt ++ 58 :: nutTextGuid guid ++
    47 :: (file ++ [10, 10]))

/-- The body of the push request that `nut_send_push` writes; `calls` are the calls of
`nut_put_push` before. -/
def pushPacket (order : ByteOrder) (calls : List Codecs.NutPush) (transfer : NutTransfer)
    (hguid : transfer.guid.length = nutGuidSize) (ip : UInt32) (port : UInt16) : List UInt8 :=
  Codecs.nutPutPush order (afterCalls sizeofNutPush (Codecs.nutPutPush order) calls)
    ⟨⟨transfer.guid, hguid⟩, transfer.index, ip, port⟩

/-- The branch of `nut_push_request` for a request that is not passed on: what it writes to the
host that asks. `connected` tells whether this host can be reached. -/
def nutPushRequestGive (order : ByteOrder) (cfg : PushConfig) (nut : NutConfig) (connected : Bool)
    (buffer : Socket.PrintBuffer) (packet : List UInt8) : Option (List UInt8) :=
  let push := Codecs.nutGetPush order packet
  if (nut.reply (pushId packet)).isSome then none
  else if cfg.guid = push.id ∧ cfg.uploads ≤ cfg.maxUploads ∧ connected then
    (nutGetDatabase cfg.database none push.index).map fun entry =>
      sockPrintf buffer (giveText entry.index cfg.guid.val entry.file)
  else none

/-- The key that `nut_check_given` looks up when the line arrives in pieces. It is called from
`GIV ` on, and waits for two newlines. -/
def givenLookup : List UInt8 → List (List UInt8) → Option (Option (List UInt8))
  | _, [] => none
  | buffer, piece :: pieces =>
    let buffer := buffer ++ piece
    if nutGive <+: buffer ∧ [10, 10] <:+: buffer then some (givenKey buffer)
    else givenLookup buffer pieces

variable {ι : Type} [DecidableEq ι]

/-- The calls of `nut_check_given` themselves. -/
def receiveGiven (resolve : List UInt8 → ι) (sock : Nat) (opens : Bool) (s : Transfers ι) :
    List UInt8 → List (List UInt8) → Transfers ι
  | _, [] => s
  | buffer, piece :: pieces =>
    let buffer := buffer ++ piece
    if nutGive <+: buffer then
      let s := nutCheckGiven resolve s sock buffer opens
      if [10, 10] <:+: buffer then s else receiveGiven resolve sock opens s buffer pieces
    else receiveGiven resolve sock opens s buffer pieces

/-! ## The key -/

theorem toNat_hexDigit {d : UInt8} (hd : d < 16) :
    (hexDigit d).toNat = if d.toNat < 10 then d.toNat + 48 else d.toNat + 55 := by
  have hlt : d.toNat < 16 := UInt8.lt_iff_toNat_lt.mp hd
  unfold hexDigit
  by_cases h : d < 10
  · have h' : d.toNat < 10 := UInt8.lt_iff_toNat_lt.mp h
    rw [if_pos h, if_pos h', UInt8.toNat_add]
    simp
    omega
  · have h' : ¬ d.toNat < 10 := fun hd' => h (UInt8.lt_iff_toNat_lt.mpr hd')
    rw [if_neg h, if_neg h', UInt8.toNat_add]
    simp
    omega

theorem hexDigit_injective {d e : UInt8} (hd : d < 16) (he : e < 16)
    (h : hexDigit d = hexDigit e) : d = e := by
  have hnat := congrArg UInt8.toNat h
  rw [toNat_hexDigit hd, toNat_hexDigit he] at hnat
  apply UInt8.toNat_inj.mp
  split at hnat <;> split at hnat <;> omega

theorem nibbles_lt (b : UInt8) : b / 16 < 16 ∧ b % 16 < 16 := by
  have hb := b.toNat_lt
  constructor
  · rw [UInt8.lt_iff_toNat_lt, UInt8.toNat_div]
    simp
    omega
  · rw [UInt8.lt_iff_toNat_lt, UInt8.toNat_mod]
    simp
    omega

theorem nutTextGuid_cons (b : UInt8) (guid : List UInt8) :
    nutTextGuid (b :: guid) = hexDigit (b / 16) :: hexDigit (b % 16) :: nutTextGuid guid := rfl

theorem nutTextGuid_injective {guid guid' : List UInt8}
    (h : nutTextGuid guid = nutTextGuid guid') : guid = guid' := by
  induction guid generalizing guid' with
  | nil =>
    cases guid' with
    | nil => rfl
    | cons b guid' => simp [nutTextGuid] at h
  | cons b guid ih =>
    cases guid' with
    | nil => simp [nutTextGuid] at h
    | cons b' guid' =>
      rw [nutTextGuid_cons, nutTextGuid_cons, List.cons.injEq, List.cons.injEq] at h
      have hhigh := hexDigit_injective (nibbles_lt b).1 (nibbles_lt b').1 h.1
      have hlow := hexDigit_injective (nibbles_lt b).2 (nibbles_lt b').2 h.2.1
      have hdiv := congrArg UInt8.toNat hhigh
      have hmod := congrArg UInt8.toNat hlow
      simp only [UInt8.toNat_div, UInt8.toNat_mod, UInt8.reduceToNat] at hdiv hmod
      have hb : b = b' := UInt8.toNat_inj.mp (by omega)
      rw [hb, ih h.2.2]

@[simp] theorem length_nutTextGuid (guid : List UInt8) :
    (nutTextGuid guid).length = 2 * guid.length := by
  induction guid with
  | nil => rfl
  | cons b guid ih =>
    rw [nutTextGuid_cons, List.length_cons, List.length_cons, ih, List.length_cons]
    omega

theorem pushKey_eq (index : UInt32) (guid : List UInt8) :
    pushKey index guid = signedBytes index.toBitVec.toInt ++ 58 :: nutTextGuid guid := rfl

theorem giveText_eq (index : UInt32) (guid file : List UInt8) :
    giveText index guid file = nutGive ++ (pushKey index guid ++ 47 :: (file ++ [10, 10])) := rfl

theorem notMem_pushKey {c : UInt8} (hdigit : ¬ IsDigitByte c) (hminus : c ≠ 45) (hcolon : c ≠ 58)
    (hhex : ¬ (65 ≤ c.toNat ∧ c.toNat ≤ 70)) (index : UInt32) (guid : List UInt8) :
    c ∉ pushKey index guid := by
  have hchar : ∀ d, d < 16 → c ≠ hexDigit d := by
    intro d hd hc
    have hlt : d.toNat < 16 := UInt8.lt_iff_toNat_lt.mp hd
    have hnat := congrArg UInt8.toNat hc
    rw [toNat_hexDigit hd] at hnat
    have hbyte : ¬ (48 ≤ c.toNat ∧ c.toNat ≤ 57) := fun h =>
      hdigit ⟨UInt8.le_iff_toNat_le.mpr h.1, UInt8.le_iff_toNat_le.mpr h.2⟩
    split at hnat <;> omega
  have hguid : c ∉ nutTextGuid guid := by
    intro hmem
    obtain ⟨b, -, hb⟩ := List.mem_flatMap.mp hmem
    rcases List.mem_cons.mp hb with hc | hc
    · exact hchar _ (nibbles_lt b).1 hc
    · exact hchar _ (nibbles_lt b).2 (List.mem_singleton.mp hc)
  rw [pushKey_eq, List.mem_append, List.mem_cons, not_or, not_or]
  exact ⟨notMem_signedBytes hdigit hminus, hcolon, hguid⟩

theorem pushKey_injective {index index' : UInt32} {guid guid' : List UInt8}
    (h : pushKey index guid = pushKey index' guid') : index = index' ∧ guid = guid' := by
  have hfront : ∀ i : Int, ∀ d ∈ signedBytes i, d ≠ 58 := by
    intro i d hd hc
    exact notMem_signedBytes (i := i) (c := 58) (by decide) (by decide) (hc ▸ hd)
  have hcolon : ¬ (58 : UInt8) ≠ 58 := fun hne => hne rfl
  rw [pushKey_eq, pushKey_eq] at h
  have hindex := congrArg (List.takeWhile (· ≠ 58)) h
  rw [takeWhile_cut (hfront _) hcolon, takeWhile_cut (hfront _) hcolon] at hindex
  have hint := BitVec.eq_of_toInt_eq (signedBytes_injective hindex)
  rw [hindex] at h
  have hguid := (List.cons.inj (List.append_cancel_left h)).2
  exact ⟨UInt32.toBitVec_inj.mp hint, nutTextGuid_injective hguid⟩

/-- The key with its terminator fits into the buffer of `nut_send_push`. -/
theorem length_pushKey_lt (index : UInt32) {guid : List UInt8}
    (hguid : guid.length = nutGuidSize) :
    (pushKey index guid).length < 16 + nutGuidSize * 2 := by
  have hsigned : (signedBytes index.toBitVec.toInt).length ≤ 11 := by
    apply length_signedBytes_le (by omega)
    have hlt := index.toBitVec.isLt
    rw [BitVec.toInt_eq_toNat_cond]
    split <;> omega
  rw [pushKey_eq, List.length_append, List.length_cons, length_nutTextGuid, hguid]
  omega

/-! ## The line -/

variable {s : Transfers ι} {index : UInt32}

/-- A file name leaves the line short enough for the buffer of `svz_sock_printf`. -/
theorem sockPrintf_giveText (buffer : Socket.PrintBuffer) {guid file : List UInt8}
    (hguid : guid.length = nutGuidSize) (hfile : IsDirName file) :
    sockPrintf buffer (giveText index guid file) = giveText index guid file := by
  have hkey := length_pushKey_lt index hguid
  have hname := hfile.length_le
  have hsizes : nutGuidSize = 16 ∧ Socket.vsnprintfBufSize = 2048 := ⟨rfl, rfl⟩
  have hlen : (giveText index guid file).length < Socket.vsnprintfBufSize := by
    rw [giveText_eq, List.length_append, List.length_append, List.length_cons, List.length_append]
    simp only [nutGive, List.length_cons, List.length_nil]
    omega
  exact Socket.sockPrintf_eq buffer hlen

/-- The packet says on every host which file is asked for. -/
theorem nutGetPush_pushPacket (order order' : ByteOrder) (calls : List Codecs.NutPush)
    (transfer : NutTransfer) (hguid : transfer.guid.length = nutGuidSize) (ip : UInt32)
    (port : UInt16) :
    let push := Codecs.nutGetPush order' (pushPacket order calls transfer hguid ip port)
    push.id.val = transfer.guid ∧ push.index = transfer.index := by
  intro push
  have hwritten := @afterCalls_overwrite _ sizeofNutPush 0 _
    (Codecs.inverse_push order).length_put calls ⟨⟨transfer.guid, hguid⟩, transfer.index, ip, port⟩
  have hpacket : pushPacket order calls transfer hguid ip port =
      transfer.guid ++ (toBytes 4 transfer.index.toNat ++ (Codecs.bytes32 order ip ++
        Codecs.bytes16 order (Codecs.ntols port))) := by
    rw [List.replicate_zero, List.append_nil] at hwritten
    rw [← Codecs.bytes32_htoll order transfer.index]
    exact hwritten
  have hindex : push.index = getUInt32 ((pushPacket order calls transfer hguid ip port).drop
      nutGuidSize) := by
    apply Codecs.ltohl_copy32
    rw [hpacket, List.drop_left' hguid, List.length_append, length_toBytes]
    omega
  constructor
  · change (pushPacket order calls transfer hguid ip port).takeD nutGuidSize 0 = transfer.guid
    rw [hpacket, List.takeD_left' hguid]
  · rw [hindex, hpacket, List.drop_left' hguid]
    unfold getUInt32
    rw [List.take_left' (length_toBytes 4 _), ofBytes_toBytes transfer.index.toNat_lt,
      UInt32.ofNat_toNat]

/-- The line that the addressed server writes is for the file that was asked for. -/
theorem nutPushRequestGive_eq {order order' : ByteOrder} {cfg : PushConfig} {nut : NutConfig}
    {connected : Bool} {buffer : Socket.PrintBuffer} {calls : List Codecs.NutPush}
    {transfer : NutTransfer} {hguid : transfer.guid.length = nutGuidSize} {ip : UInt32}
    {port : UInt16} {line : List UInt8}
    (h : nutPushRequestGive order' cfg nut connected buffer
      (pushPacket order calls transfer hguid ip port) = some line) :
    ∃ entry ∈ cfg.database, entry.index = transfer.index ∧ cfg.guid.val = transfer.guid ∧
      line = giveText transfer.index transfer.guid entry.file := by
  obtain ⟨hid, hindex⟩ := nutGetPush_pushPacket order order' calls transfer hguid ip port
  unfold nutPushRequestGive at h
  dsimp only at h
  split_ifs at h with hrouted hmine
  obtain ⟨entry, hentry, rfl⟩ := Option.map_eq_some_iff.mp h
  have hmem := List.mem_of_find?_eq_some hentry
  have hfound := List.find?_some hentry
  simp only [decide_eq_true_eq] at hfound
  have hsame : entry.index = transfer.index := hfound.1.trans hindex
  have hguid' : cfg.guid.val = transfer.guid := (congrArg Subtype.val hmine.1).trans hid
  refine ⟨entry, hmem, hsame, hguid', ?_⟩
  rw [sockPrintf_giveText buffer cfg.guid.property (cfg.named entry hmem), hsame, hguid']

/-- A server that is asked for one of its files and can reach the host writes the line. -/
theorem nutPushRequestGive_some {order order' : ByteOrder} {cfg : PushConfig} {nut : NutConfig}
    {buffer : Socket.PrintBuffer} {calls : List Codecs.NutPush} {transfer : NutTransfer}
    {hguid : transfer.guid.length = nutGuidSize} {ip : UInt32} {port : UInt16} {entry : NutFile}
    (hreply : nut.reply (pushId (pushPacket order calls transfer hguid ip port)) = none)
    (hmine : cfg.guid.val = transfer.guid) (huploads : cfg.uploads ≤ cfg.maxUploads)
    (hentry : nutGetDatabase cfg.database none transfer.index = some entry) :
    nutPushRequestGive order' cfg nut true buffer
        (pushPacket order calls transfer hguid ip port) =
      some (sockPrintf buffer (giveText entry.index cfg.guid.val entry.file)) := by
  obtain ⟨hid, hindex⟩ := nutGetPush_pushPacket order order' calls transfer hguid ip port
  have hsame : cfg.guid = (Codecs.nutGetPush order'
      (pushPacket order calls transfer hguid ip port)).id := Subtype.ext (hmine.trans hid.symm)
  unfold nutPushRequestGive
  dsimp only
  rw [hreply, hindex, hentry, if_neg (by simp), if_pos ⟨hsame, huploads, rfl⟩, Option.map_some]

theorem exists_behind_key {guid file buffer : List UInt8}
    (hreceived : buffer <+: giveText index guid file) (hends : [10, 10] <:+: buffer) :
    ∃ rest, buffer = nutGive ++ (pushKey index guid ++ 47 :: rest) := by
  have hfront : 10 ∉ nutGive ++ (pushKey index guid ++ [47]) := by
    have hgive : (10 : UInt8) ∉ nutGive := by decide
    have hkey := notMem_pushKey (c := 10) (by decide) (by decide) (by decide) (by decide) index guid
    simp [hgive, hkey]
  have hmem : 10 ∈ buffer := hends.subset (by simp)
  have hwhole : nutGive ++ (pushKey index guid ++ [47]) <+: giveText index guid file :=
    ⟨file ++ [10, 10], by rw [giveText_eq]; simp⟩
  rcases List.prefix_or_prefix_of_prefix hreceived hwhole with hshort | ⟨rest, hrest⟩
  · exact absurd (hshort.subset hmem) hfront
  · refine ⟨rest, ?_⟩
    rw [← hrest]
    simp

theorem givenKey_line (index : UInt32) (guid rest : List UInt8) :
    givenKey (nutGive ++ (pushKey index guid ++ 47 :: rest)) = some (pushKey index guid) := by
  have hslash : 47 ∉ pushKey index guid :=
    notMem_pushKey (by decide) (by decide) (by decide) (by decide) index guid
  have hzero : 0 ∉ pushKey index guid :=
    notMem_pushKey (by decide) (by decide) (by decide) (by decide) index guid
  have hdrop : (nutGive ++ (pushKey index guid ++ 47 :: rest)).drop 4 =
      pushKey index guid ++ 47 :: rest := List.drop_left' rfl
  unfold givenKey
  dsimp only
  rw [hdrop, if_pos (by simp), takeWhile_ne_cut hslash, cString_eq_self hzero]

theorem prefix_nutGive {guid file buffer : List UInt8}
    (hreceived : buffer <+: giveText index guid file) (hends : [10, 10] <:+: buffer) :
    nutGive <+: buffer := by
  obtain ⟨rest, rfl⟩ := exists_behind_key hreceived hends
  exact List.prefix_append _ _

theorem infix_giveText (index : UInt32) (guid file : List UInt8) :
    [10, 10] <:+: giveText index guid file :=
  ⟨nutGive ++ (pushKey index guid ++ 47 :: file), [], by rw [giveText_eq]; simp⟩

/-- Along the pieces of the line: the whole front of it has been received, up to the piece that
brings the two newlines. -/
theorem pieces_induction {guid file : List UInt8} {motive : List UInt8 → List (List UInt8) → Prop}
    (ends : ∀ before piece pieces, nutGive <+: before ++ piece → [10, 10] <:+: before ++ piece →
      givenKey (before ++ piece) = some (pushKey index guid) → motive before (piece :: pieces))
    (waits : ∀ before piece pieces, ¬ [10, 10] <:+: before ++ piece →
      motive (before ++ piece) pieces → motive before (piece :: pieces))
    (pieces : List (List UInt8)) (before : List UInt8)
    (hwhole : before ++ pieces.flatten = giveText index guid file)
    (hwaiting : ¬ [10, 10] <:+: before) : motive before pieces := by
  induction pieces generalizing before with
  | nil =>
    rw [List.flatten_nil, List.append_nil] at hwhole
    exact absurd (hwhole ▸ infix_giveText index guid file) hwaiting
  | cons piece pieces ih =>
    rw [List.flatten_cons, ← List.append_assoc] at hwhole
    have hreceived : before ++ piece <+: giveText index guid file := ⟨pieces.flatten, hwhole⟩
    by_cases hends : [10, 10] <:+: before ++ piece
    · obtain ⟨rest, hrest⟩ := exists_behind_key hreceived hends
      apply ends before piece pieces (prefix_nutGive hreceived hends) hends
      rw [hrest, givenKey_line]
    · exact waits before piece pieces hends (ih _ hwhole hends)

/-- The key that is found does not depend on how the line is cut. -/
theorem givenLookup_line {guid file : List UInt8} (pieces : List (List UInt8))
    (before : List UInt8) (hwhole : before ++ pieces.flatten = giveText index guid file)
    (hwaiting : ¬ [10, 10] <:+: before) :
    givenLookup before pieces = some (some (pushKey index guid)) := by
  apply pieces_induction ?_ ?_ pieces before hwhole hwaiting
  · intro before piece pieces hgive hends hkey
    rw [givenLookup, if_pos ⟨hgive, hends⟩, hkey]
  · intro before piece pieces hends ih
    rw [givenLookup, if_neg (fun h => hends h.2)]
    exact ih

/-! ## The transfers kept -/

/-- The transfers that wait for a `GIV` line are kept under their own keys, each key once. -/
structure KeptPushes (s : Transfers ι) : Prop where
  keyed : Keyed Prod.fst s.push
  own : ∀ e ∈ s.push, e.1 = pushKey e.2.index e.2.guid

theorem KeptPushes.congr {s s' : Transfers ι} (h : KeptPushes s) (hpush : s'.push = s.push) :
    KeptPushes s' := by
  constructor
  · rw [hpush]
    exact h.keyed
  · rw [hpush]
    exact h.own

theorem keptPushes_sendPush (h : KeptPushes s) (transfer : NutTransfer) (outcome : PushOutcome) :
    KeptPushes (nutSendPush s transfer outcome) := by
  unfold nutSendPush
  dsimp only
  split_ifs with hfound hsent hwritten
  · exact h
  · exact h
  · exact h
  · have hfree : findKey Prod.fst (pushKey transfer.index transfer.guid) s.push = none := by
      simpa using hsent
    constructor
    · exact h.keyed.cons hfree
    · intro e he
      rcases List.mem_cons.mp he with rfl | he
      · rfl
      · exact h.own e he

theorem nutSendPush_sent (transfer : NutTransfer)
    (h : findKey Prod.fst (pushKey transfer.index transfer.guid) s.push = none) :
    (nutSendPush s transfer ⟨true, true⟩).push =
      (pushKey transfer.index transfer.guid, transfer) :: s.push := by
  unfold nutSendPush
  dsimp only
  rw [h]
  rfl

theorem keptPushes_removeKey (h : KeptPushes s) (key : List UInt8) :
    Keyed Prod.fst (removeKey Prod.fst key s.push) ∧
      ∀ e ∈ removeKey Prod.fst key s.push, e.1 = pushKey e.2.index e.2.guid :=
  ⟨h.keyed.removeKey key, fun e he => h.own e (mem_removeKey.mp he).1⟩

theorem keptPushes_checkGiven (h : KeptPushes s) (resolve : List UInt8 → ι) (sock : Nat)
    (buffer : List UInt8) (opens : Bool) :
    KeptPushes (nutCheckGiven resolve s sock buffer opens) := by
  unfold nutCheckGiven
  split
  · split
    · exact h.congr rfl
    · next key transfer _ =>
      have hremoved := keptPushes_removeKey h key
      dsimp only
      split_ifs
      · exact ⟨hremoved.1, hremoved.2⟩
      · exact ⟨hremoved.1, hremoved.2⟩
  · exact h

theorem keptPushes_disconnectDownload (h : KeptPushes s) (resolve : List UInt8 → ι)
    (transfer : NutTransfer) (opened hdr : Bool) (announced written : Nat) (outcome : PushOutcome) :
    KeptPushes (nutDisconnectDownload resolve s transfer opened hdr announced written outcome) := by
  unfold nutDisconnectDownload
  dsimp only
  split_ifs
  -- the request is sent in half of the cases
  all_goals first
    | exact h.congr rfl
    | apply keptPushes_sendPush
      exact h.congr rfl

theorem keptPushes_step (cfg : TransferConfig) (resolve : List UInt8 → ι) (h : KeptPushes s)
    (step : TransferStep) : KeptPushes (transferStep cfg resolve s step) := by
  cases step with
  | hit origin guid record opens connected =>
    unfold transferStep nutInitTransfer
    dsimp only
    split_ifs
    · exact h
    · exact h
    · cases connected with
      | none => exact h.congr rfl
      | some sock => exact h.congr rfl
    · exact h
  | giv sock buffer opens =>
    unfold transferStep
    dsimp only
    split
    · exact keptPushes_checkGiven h resolve sock buffer opens
    · exact h
  | timeout sock outcome =>
    unfold transferStep
    dsimp only
    split
    · refine KeptPushes.congr (s := nutSendPush s _ outcome) ?_ rfl
      exact keptPushes_sendPush h _ outcome
    · exact h
  | disconnect sock outcome =>
    unfold transferStep
    dsimp only
    split
    · exact h
    · split
      · exact h.congr rfl
      · apply keptPushes_disconnectDownload
        exact h.congr rfl
      · split_ifs
        · exact h.congr rfl
        · exact h.congr rfl
  | giving sock | header sock length | save sock written | uploading sock | pushed sock
  | get sock started | read sock | fail sock =>
    unfold transferStep
    dsimp only
    repeat' split
    all_goals exact h.congr rfl

theorem keptPushes_run (cfg : TransferConfig) (resolve : List UInt8 → ι) (files : List ι)
    (steps : List TransferStep) : KeptPushes (transferRun cfg resolve files steps) := by
  apply foldl_invariant (transferStep cfg resolve) KeptPushes (fun _ step h =>
    keptPushes_step cfg resolve h step)
  exact ⟨List.nodup_nil, fun e he => absurd he List.not_mem_nil⟩

theorem KeptPushes.found (h : KeptPushes s) {guid : List UInt8} {e : List UInt8 × NutTransfer}
    (he : findKey Prod.fst (pushKey index guid) s.push = some e) :
    e.2.index = index ∧ e.2.guid = guid := by
  obtain ⟨hmem, hkey⟩ := findKey_mem he
  exact pushKey_injective ((h.own e hmem).symm.trans hkey)

/-! ## The line received -/

/-- The calls of `nut_check_given` come to one call with the front of the line. -/
theorem receiveGiven_line (resolve : List UInt8 → ι) (sock : Nat) (opens : Bool) (s : Transfers ι)
    {guid file : List UInt8} (pieces : List (List UInt8)) (before : List UInt8)
    (hwhole : before ++ pieces.flatten = giveText index guid file)
    (hwaiting : ¬ [10, 10] <:+: before) :
    ∃ buffer, [10, 10] <:+: buffer ∧ givenKey buffer = some (pushKey index guid) ∧
      receiveGiven resolve sock opens s before pieces =
        nutCheckGiven resolve s sock buffer opens := by
  apply pieces_induction ?_ ?_ pieces before hwhole hwaiting
  · intro before piece pieces hgive hends hkey
    refine ⟨before ++ piece, hends, hkey, ?_⟩
    rw [receiveGiven, if_pos hgive]
    dsimp only
    rw [if_pos hends]
  · intro before piece pieces hends ih
    obtain ⟨buffer, hbuffer, hkey, hrest⟩ := ih
    refine ⟨buffer, hbuffer, hkey, ?_⟩
    have hwait : nutCheckGiven resolve s sock (before ++ piece) opens = s := by
      unfold nutCheckGiven
      rw [if_neg hends]
    rw [receiveGiven]
    dsimp only
    rw [hwait, if_neg hends, ite_self, hrest]

theorem receiveGiven_found (resolve : List UInt8 → ι) {sock : Nat} (opens : Bool)
    (h : KeptPushes s) {transfer : NutTransfer} {file : List UInt8}
    (hkept : (pushKey transfer.index transfer.guid, transfer) ∈ s.push) {c : NutConn}
    (hc : findKey NutConn.sock sock s.conns = some c) {pieces : List (List UInt8)}
    (hwhole : pieces.flatten = giveText transfer.index transfer.guid file) :
    ∃ opened closing, findKey NutConn.sock sock
        (receiveGiven resolve sock opens s [] pieces).conns =
      some ⟨c.sock, .download transfer opened false false 0 0, closing⟩ := by
  obtain ⟨buffer, hends, hkey, hreceived⟩ := receiveGiven_line resolve sock opens s pieces []
    hwhole (by simp)
  have hfound := findKey_of_mem h.keyed hkept rfl
  rw [hreceived]
  unfold nutCheckGiven
  rw [if_pos hends, hkey, Option.bind_some, hfound]
  dsimp only
  split_ifs with hclosed
  · refine ⟨false, true, ?_⟩
    exact findKey_modifyKey (fun _ => rfl) hc
  · refine ⟨true, c.closing, ?_⟩
    exact findKey_modifyKey (fun _ => rfl) hc

/-- The key of a transfer fits into its buffer. In every state of the transfers each one is kept
under its own key, so that what is kept under this key is for the file requested, and
`nut_send_push` keeps the transfer under this key. It is the key that is found in the line with
which the addressed server answers the request, however the line is cut into reads, and the
connection goes on with the transfer that was kept. -/
theorem pushHandshake (order order' : ByteOrder) (cfg : PushConfig) (nut : NutConfig)
    (connected : Bool) (buffer : Socket.PrintBuffer) (calls : List Codecs.NutPush)
    (transfer : NutTransfer) (hguid : transfer.guid.length = nutGuidSize) (ip : UInt32)
    (port : UInt16) (transfers : TransferConfig) (resolve : List UInt8 → ι) (files : List ι)
    (steps : List TransferStep) :
    let key := pushKey transfer.index transfer.guid
    let s := transferRun transfers resolve files steps
    key.length + 1 ≤ 16 + nutGuidSize * 2 ∧
      (∀ e ∈ s.push, e.1 = pushKey e.2.index e.2.guid) ∧
      (∀ e, findKey Prod.fst key s.push = some e →
        e.2.index = transfer.index ∧ e.2.guid = transfer.guid) ∧
      (findKey Prod.fst key s.push = none →
        (nutSendPush s transfer ⟨true, true⟩).push = (key, transfer) :: s.push) ∧
      ∀ line, nutPushRequestGive order' cfg nut connected buffer
          (pushPacket order calls transfer hguid ip port) = some line →
        ∀ pieces : List (List UInt8), pieces.flatten = line →
          givenLookup [] pieces = some (some key) ∧
            ((key, transfer) ∈ s.push → ∀ sock opens c,
              findKey NutConn.sock sock s.conns = some c →
                ∃ opened closing, findKey NutConn.sock sock
                    (receiveGiven resolve sock opens s [] pieces).conns =
                  some ⟨c.sock, .download transfer opened false false 0 0, closing⟩) := by
  intro key s
  have hkept : KeptPushes s := keptPushes_run transfers resolve files steps
  refine ⟨length_pushKey_lt transfer.index hguid, hkept.own, fun e he => hkept.found he,
    nutSendPush_sent transfer, ?_⟩
  intro line hline pieces hpieces
  obtain ⟨entry, -, -, -, rfl⟩ := nutPushRequestGive_eq hline
  refine ⟨givenLookup_line pieces [] hpieces (by simp), ?_⟩
  intro htransfer sock opens c hc
  exact receiveGiven_found resolve opens hkept htransfer hc hpieces

/-- A server with one file. -/
def oneFile (guid : Codecs.Guid) (index : UInt32) : PushConfig where
  guid
  uploads := 0
  maxUploads := 1
  database := [⟨index, 1, [98], by decide⟩]
  named := by
    intro entry hentry
    obtain rfl := List.mem_singleton.mp hentry
    exact ⟨by simp, by simp, by simp⟩

/-- The host of a query hit does not answer and is sent a push request. Its `GIV` line comes in two
pieces on another connection. -/
theorem pushHandshake_oneFile :
    let guid := List.replicate 16 171
    let steps : List TransferStep :=
      [.hit 1 guid ⟨5, 1, [98], 0⟩ true (some 2), .timeout 2 ⟨true, true⟩, .giving 3]
    let s := transferRun ⟨[97], none, [[98]], 1, 1, 0⟩ id [] steps
    ∃ transfer, transfer.index = 5 ∧ s.push = [(pushKey 5 guid, transfer)] ∧
      ∃ opened closing, findKey NutConn.sock 3 (receiveGiven id 3 true s []
          [nutGive ++ [53], (giveText 5 guid [98]).drop 5]).conns =
        some ⟨3, .download transfer opened false false 0 0, closing⟩ := by
  intro guid steps s
  have hguid : guid.length = nutGuidSize := rfl
  have hpieces : [nutGive ++ [53], (giveText 5 guid [98]).drop 5].flatten =
      sockPrintf ⟨List.replicate 2048 0, List.length_replicate⟩ (giveText 5 guid [98]) := by
    rw [sockPrintf_giveText _ hguid ⟨by simp, by decide, by decide⟩, List.flatten_cons,
      List.flatten_cons, List.flatten_nil, List.append_nil]
    rfl
  have h := pushHandshake .little .big (oneFile ⟨guid, hguid⟩ 5) (startConfig 7)
    true ⟨List.replicate 2048 0, List.length_replicate⟩ [] ⟨5, guid, 1, [97, 47, 98], 0⟩
    hguid 0 0 ⟨[97], none, [[98]], 1, 1, 0⟩ id [] steps
  have hpush : s.push = [(pushKey 5 guid, ⟨5, guid, 1, [97, 47, 98], 0⟩)] := rfl
  have hconn : findKey NutConn.sock 3 s.conns = some ⟨3, .given, false⟩ := rfl
  refine ⟨_, rfl, hpush, ?_⟩
  have hline := h.2.2.2.2 _ (nutPushRequestGive_some rfl rfl (by simp [oneFile]) rfl) _ hpieces
  exact hline.2 (hpush ▸ List.mem_singleton.mpr rfl) 3 true _ hconn

end Serveez.Nut
