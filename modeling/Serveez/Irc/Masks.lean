import Serveez.Irc.Crypt

/-!
# Masks of bans

A mask is a host, `user@host` or `nick!user@host`. `irc_create_ban` takes it apart, with `NULL` for
what is not there or empty; `irc_ban_string` prints its text behind what its buffer holds, and
`irc_client_banned` compares with all three parts.

* `ircCreateBan_parts`: the fields of a ban are the parts of its mask.
* `findBan_behind`: behind other bans a ban is not found by its mask.
* `maskHolds_iff`: which masks print, remove and match as they should.
-/

set_option linter.unusedSectionVars false

namespace Serveez.Irc.Channels

open Lib

variable {κ : Type} [DecidableEq κ]

/-- The parts of a mask. Of a nick with a text that is no `user@host` there is only the nick. -/
inductive HasParts : List UInt8 → IrcBan → Prop
  | host {host : List UInt8} (hmark : 33 ∉ host) (hat : 64 ∉ host) :
      HasParts host ⟨none, none, some host⟩
  | user {user : List UInt8} (host : List UInt8) (hmark : 33 ∉ user) (hat : 64 ∉ user) :
      HasParts (user ++ 64 :: host) ⟨none, some user, some host⟩
  | full {nick user : List UInt8} (host : List UInt8) (hmark : 33 ∉ nick) (hnick : 64 ∉ nick)
      (hat : 64 ∉ user) : HasParts (nick ++ 33 :: (user ++ 64 :: host))
        ⟨some nick, some user, some host⟩
  | nick {nick text : List UInt8} (hmark : 33 ∉ nick) (hnick : 64 ∉ nick) (hat : 64 ∉ text) :
      HasParts (nick ++ 33 :: text) ⟨some nick, none, none⟩

/-- A field of a client matches a part of a mask; a part that is not there is matched. -/
def PartMatches (field part : Option (List UInt8)) : Prop :=
  ∀ regex, part = some regex → matchesPtr field (some regex) = some true

/-- The channel has the bans of some masks. -/
def ChannelState.withBans (s : ChannelState κ) (channel : Nat) (masks : List (CString maxMsgLen)) :
    ChannelState κ :=
  s.setSettings channel
    { s.settings channel with ban := masks.map fun mask => ircCreateBan mask.text }

/-- A mask comes back as the text of its ban, the same text removes the ban that it has set, and the
ban is of the clients that match the parts of the mask. -/
structure MaskHolds (s : ChannelState κ) (channel : Nat) (masks : List (CString maxMsgLen))
    (mask : CString maxMsgLen) (nick : Option (List UInt8)) (data : ClientData) : Prop where
  prints : ircBanString s.text (ircCreateBan mask.text) = some mask.text
  removed : ∃ s₁ s₂,
    channelArg (s.withBans channel masks) channel modeBan mask.text true = some (true, s₁) ∧
    channelArg s₁ channel modeBan mask.text false = some (true, s₂) ∧
    (s₂.settings channel).ban.Perm (masks.map fun mask => ircCreateBan mask.text)
  banned : ∀ parts, HasParts mask.text parts →
    ∃ banned, ircClientBanned nick data (ircCreateBan mask.text) = some banned ∧
      (banned = true ↔ PartMatches nick parts.nick ∧ PartMatches data.user parts.user ∧
        PartMatches data.host parts.host)

/-- The field is there, and the table is read inside when it is compared with the part. -/
def Compares (field : Option (List UInt8)) (part : List UInt8) : Prop :=
  (matchesPtr field (some part)).isSome = true

/-- The fields of a client that a ban of three parts is compared with. -/
structure Compared (nick : Option (List UInt8)) (data : ClientData)
    (nickPart userPart hostPart : List UInt8) : Prop where
  byNick : Compares nick nickPart
  byUser : PartMatches nick (some nickPart) → Compares data.user userPart
  byHost : PartMatches nick (some nickPart) → PartMatches data.user (some userPart) →
    Compares data.host hostPart

/-- All parts are there and not empty, no text of a ban has been made before, the first ban of the
channel, if it has one, is of the same mask, and the fields of the client can be compared. -/
structure MaskMeets (s : ChannelState κ) (masks : List (CString maxMsgLen))
    (mask : CString maxMsgLen) (nick : Option (List UInt8)) (data : ClientData) : Prop where
  whole : ∃ n u h, HasParts mask.text ⟨some n, some u, some h⟩ ∧ n ≠ [] ∧ u ≠ [] ∧ h ≠ [] ∧
    Compared nick data n u h
  fresh : s.text = []
  first : ∀ first, masks.head? = some first → first.text = mask.text

/-! ## The parts of a mask -/

variable {mask : List UInt8} {parts : IrcBan}

theorem exists_parts (mask : List UInt8) : ∃ parts, HasParts mask parts := by
  by_cases hplain : 33 ∉ mask ∧ 64 ∉ mask
  · exact ⟨_, .host hplain.1 hplain.2⟩
  have hfound : ∃ c ∈ mask, c = 33 ∨ c = 64 := by
    by_contra hnone
    exact hplain ⟨fun hmem => hnone ⟨33, hmem, Or.inl rfl⟩,
      fun hmem => hnone ⟨64, hmem, Or.inr rfl⟩⟩
  -- the first mark of the mask
  obtain ⟨front, c, back, rfl, hfront, hc⟩ : ∃ front c back, mask = front ++ c :: back ∧
      (∀ d ∈ front, ¬ (d = 33 ∨ d = 64)) ∧ (c = 33 ∨ c = 64) := by
    obtain ⟨c, hc, hmark⟩ := hfound
    let P : UInt8 → Prop := fun d => ¬ (d = 33 ∨ d = 64)
    cases hdrop : mask.dropWhile (P ·) with
    | nil =>
      have hall := List.dropWhile_eq_nil_iff.mp hdrop c hc
      exact absurd hmark (of_decide_eq_true hall)
    | cons d back =>
      have hstop : ¬ P d := not_of_dropWhile (P := P) hdrop
      refine ⟨mask.takeWhile (P ·), d, back, ?_, fun e he => of_mem_takeWhile (P := P) he,
        not_not.mp hstop⟩
      rw [← hdrop, List.takeWhile_append_dropWhile]
  have hmark : 33 ∉ front := fun hmem => hfront 33 hmem (Or.inl rfl)
  have hat : 64 ∉ front := fun hmem => hfront 64 hmem (Or.inr rfl)
  rcases hc with rfl | rfl
  · by_cases hback : 64 ∈ back
    · obtain ⟨user, host, rfl, huser⟩ := List.eq_append_cons_of_mem hback
      exact ⟨_, .full host hmark hat huser⟩
    · exact ⟨_, .nick hmark hat hback⟩
  · exact ⟨_, .user back hmark hat⟩

theorem ircCreateBan_parts (h : HasParts mask parts) :
    ircCreateBan mask =
      ⟨parts.nick.bind svzStrdup, parts.user.bind svzStrdup, parts.host.bind svzStrdup⟩ := by
  have hfront {front : List UInt8} (hmark : 33 ∉ front) (hat : 64 ∉ front) :
      ∀ c ∈ front, c ≠ 33 ∧ c ≠ 64 :=
    fun c hc => ⟨fun hsame => hmark (hsame ▸ hc), fun hsame => hat (hsame ▸ hc)⟩
  have huser {user : List UInt8} (hat : 64 ∉ user) : ∀ c ∈ user, c ≠ 64 :=
    fun c hc hsame => hat (hsame ▸ hc)
  unfold ircCreateBan
  cases h with
  | host hmark hat =>
    rw [List.takeWhile_eq_self_iff.mpr (by simpa using hfront hmark hat),
      List.dropWhile_eq_nil_iff.mpr (by simpa using hfront hmark hat)]
    rfl
  | user host hmark hat =>
    rw [takeWhile_cut (hfront hmark hat) (by decide), dropWhile_cut (hfront hmark hat) (by decide)]
    rfl
  | full host hmark hnick hat =>
    rw [takeWhile_cut (hfront hmark hnick) (by decide),
      dropWhile_cut (hfront hmark hnick) (by decide)]
    dsimp only
    rw [if_pos rfl, takeWhile_cut (huser hat) (by decide), dropWhile_cut (huser hat) (by decide)]
    rfl
  | nick hmark hnick hat =>
    rw [takeWhile_cut (hfront hmark hnick) (by decide),
      dropWhile_cut (hfront hmark hnick) (by decide)]
    dsimp only
    rw [if_pos rfl, List.dropWhile_eq_nil_iff.mpr (by simpa using huser hat)]
    rfl

theorem svzStrdup_eq {text : List UInt8} (h : text ≠ []) : svzStrdup text = some text := if_neg h

theorem ne_nil_of_svzStrdup {text result : List UInt8} (h : svzStrdup text = some result) :
    text ≠ [] ∧ result = text := by
  unfold svzStrdup at h
  split_ifs at h with hempty
  exact ⟨hempty, (Option.some.inj h).symm⟩

theorem ircCreateBan_full {n u h : List UInt8} (hparts : HasParts mask ⟨some n, some u, some h⟩)
    (hn : n ≠ []) (hu : u ≠ []) (hh : h ≠ []) :
    ircCreateBan mask = ⟨some n, some u, some h⟩ := by
  rw [ircCreateBan_parts hparts]
  dsimp only [Option.bind_some]
  rw [svzStrdup_eq hn, svzStrdup_eq hu, svzStrdup_eq hh]

theorem mask_of_full {n u h : List UInt8} (hparts : HasParts mask ⟨some n, some u, some h⟩) :
    mask = n ++ 33 :: (u ++ 64 :: h) := by
  cases hparts
  rfl

theorem parts_of_full {n u h : List UInt8} (hparts : HasParts mask parts)
    (hfields : IrcBan.mk (parts.nick.bind svzStrdup) (parts.user.bind svzStrdup)
      (parts.host.bind svzStrdup) = ⟨some n, some u, some h⟩) :
    parts = ⟨some n, some u, some h⟩ := by
  obtain ⟨hnick, huser, hhost⟩ := IrcBan.mk.inj hfields
  obtain ⟨a, ha, hnick⟩ := Option.bind_eq_some_iff.mp hnick
  obtain ⟨b, hb, huser⟩ := Option.bind_eq_some_iff.mp huser
  obtain ⟨c, hc, hhost⟩ := Option.bind_eq_some_iff.mp hhost
  obtain rfl := (ne_nil_of_svzStrdup hnick).2
  obtain rfl := (ne_nil_of_svzStrdup huser).2
  obtain rfl := (ne_nil_of_svzStrdup hhost).2
  obtain ⟨nick, user, host⟩ := parts
  rw [show nick = _ from ha, show user = _ from hb, show host = _ from hc]

theorem mask_of_ircCreateBan {n u h : List UInt8}
    (hban : ircCreateBan mask = ⟨some n, some u, some h⟩) : mask = n ++ 33 :: (u ++ 64 :: h) := by
  obtain ⟨parts, hparts⟩ := exists_parts mask
  rw [ircCreateBan_parts hparts] at hban
  rw [parts_of_full hparts hban] at hparts
  exact mask_of_full hparts

/-! ## The text of a ban -/

theorem banMask_ne_nil {text : List UInt8} (h : banMask (ircCreateBan mask) = some text) :
    text ≠ [] := by
  obtain ⟨host, hhost, rfl⟩ := Option.map_eq_some_iff.mp h
  obtain ⟨parts, hparts⟩ := exists_parts mask
  rw [ircCreateBan_parts hparts] at hhost
  obtain ⟨c, -, hc⟩ := Option.bind_eq_some_iff.mp hhost
  obtain ⟨hne, rfl⟩ := ne_nil_of_svzStrdup hc
  exact fun hnil => hne (List.append_eq_nil_iff.mp hnil).2

theorem ircBanString_eq_some {text result : List UInt8} (h : text.length < maxMsgLen)
    {ban : IrcBan} : ircBanString text ban = some result ↔
      ∃ own, banMask ban = some own ∧ text.length + own.length < maxMsgLen ∧
        text ++ own = result := by
  rw [ircBanString_eq h, Option.bind_eq_some_iff]
  exact exists_congr fun own => and_congr_right fun _ => strcat_eq_some

theorem findBan_behind {arg text text' : List UInt8} {bans : List IrcBan} {n k : Nat}
    (hne : text ≠ []) (hlt : text.length < maxMsgLen)
    (hfind : findBan arg n bans text = some (some k, text')) :
    ∃ i ban own, k = n + i ∧ bans[i]? = some ban ∧ banMask ban = some own ∧ own ≠ arg := by
  induction bans generalizing n text with
  | nil => exact absurd (congrArg Prod.fst (Option.some.inj hfind)) (Option.some_ne_none k).symm
  | cons ban bans ih =>
    obtain ⟨printed, hprinted, hfind⟩ := Option.bind_eq_some_iff.mp hfind
    obtain ⟨own, hown, hfits, rfl⟩ := (ircBanString_eq_some hlt).mp hprinted
    split_ifs at hfind with harg
    · obtain ⟨hk, -⟩ := Prod.mk.inj (Option.some.inj hfind)
      refine ⟨0, ban, own, (Option.some.inj hk).symm, rfl, hown, fun hsame => hne ?_⟩
      rw [hsame] at harg
      exact List.self_eq_append_left.mp harg
    · obtain ⟨i, ban', own', rfl, hi, hown', hother⟩ :=
        ih (fun hnil => hne (List.append_eq_nil_iff.mp hnil).1)
          (by rw [List.length_append]; exact hfits) hfind
      exact ⟨i + 1, ban', own', by omega, hi, hown', hother⟩

/-! ## Setting and removing a ban -/

theorem channelArg_setBan (s : ChannelState κ) (channel : Nat) (arg : List UInt8) :
    channelArg s channel modeBan arg true =
      some (true, s.setSettings channel
        { s.settings channel with ban := (s.settings channel).ban ++ [ircCreateBan arg] }) := by
  unfold channelArg
  dsimp only
  rw [if_pos rfl, if_neg (by decide), if_neg (by decide)]

theorem channelArg_removeBan (s : ChannelState κ) (channel : Nat) (arg : List UInt8) :
    channelArg s channel modeBan arg false =
      (findBan arg 0 (s.settings channel).ban s.text).map fun found =>
        match found.1 with
        | none => (true, { s with text := found.2 })
        | some n =>
          (true, { s.setSettings channel
              { s.settings channel with ban := swapRemove (s.settings channel).ban n } with
            text := found.2 }) := by
  unfold channelArg
  dsimp only
  rw [if_neg Bool.false_ne_true]
  exact if_pos (by decide)

theorem settings_setSettings (s : ChannelState κ) (channel : Nat) (settings : Settings) :
    (s.setSettings channel settings).settings channel = settings := Function.update_self _ _ _

theorem removed_iff (s : ChannelState κ) (channel : Nat) (arg : List UInt8) :
    (∃ s₁ s₂, channelArg s channel modeBan arg true = some (true, s₁) ∧
      channelArg s₁ channel modeBan arg false = some (true, s₂) ∧
      (s₂.settings channel).ban.Perm (s.settings channel).ban) ↔
    ∃ n text, findBan arg 0 ((s.settings channel).ban ++ [ircCreateBan arg]) s.text =
        some (some n, text) ∧
      (swapRemove ((s.settings channel).ban ++ [ircCreateBan arg]) n).Perm
        (s.settings channel).ban := by
  constructor
  · rintro ⟨s₁, s₂, hset, hremove, hperm⟩
    rw [channelArg_setBan] at hset
    obtain rfl := (Prod.mk.inj (Option.some.inj hset)).2
    rw [channelArg_removeBan, settings_setSettings] at hremove
    obtain ⟨⟨n, text⟩, hfound, hremove⟩ := Option.map_eq_some_iff.mp hremove
    cases n with
    | none =>
      obtain rfl := (Prod.mk.inj hremove).2
      dsimp only at hperm
      rw [settings_setSettings] at hperm
      have hlength := hperm.length_eq
      rw [List.length_append, List.length_singleton] at hlength
      omega
    | some n =>
      obtain rfl := (Prod.mk.inj hremove).2
      dsimp only at hperm
      rw [settings_setSettings] at hperm
      exact ⟨n, text, hfound, hperm⟩
  · rintro ⟨n, text, hfound, hperm⟩
    let s₁ := s.setSettings channel
      { s.settings channel with ban := (s.settings channel).ban ++ [ircCreateBan arg] }
    refine ⟨s₁, { s₁.setSettings channel
        { s₁.settings channel with ban := swapRemove (s₁.settings channel).ban n } with
      text := text }, channelArg_setBan s channel arg, ?_, ?_⟩
    · have hban : (s₁.settings channel).ban = (s.settings channel).ban ++ [ircCreateBan arg] := by
        rw [settings_setSettings]
      have htext : s₁.text = s.text := rfl
      rw [channelArg_removeBan, hban, htext, hfound]
      rfl
    · dsimp only
      rw [settings_setSettings, settings_setSettings]
      exact hperm

theorem eq_of_swapRemove_perm {l bans : List IrcBan} {b x : IrcBan} {n : Nat}
    (hn : l[n]? = some x) (hl : l.Perm (b :: bans)) (h : (swapRemove l n).Perm bans) : x = b := by
  obtain ⟨hlt, rfl⟩ := List.getElem?_eq_some_iff.mp hn
  have hsame : (l[n] :: bans).Perm (b :: bans) :=
    ((h.cons l[n]).symm.trans (swapRemove_perm hlt)).trans hl
  have hcount := hsame.count_eq l[n]
  rw [List.count_cons_self, List.count_cons] at hcount
  split_ifs at hcount with heq
  · exact (beq_iff_eq.mp heq).symm
  · omega

theorem findBan_first_iff {masks : List (CString maxMsgLen)} (hlt : mask.length < maxMsgLen)
    {n u h : List UInt8} (hban : ircCreateBan mask = ⟨some n, some u, some h⟩) :
    (∃ k text, findBan mask 0 (masks.map (fun m => ircCreateBan m.text) ++ [ircCreateBan mask]) [] =
        some (some k, text) ∧
      (swapRemove (masks.map (fun m => ircCreateBan m.text) ++ [ircCreateBan mask]) k).Perm
        (masks.map fun m => ircCreateBan m.text)) ↔
    ∀ first, masks.head? = some first → first.text = mask := by
  have hempty : ([] : List UInt8).length < maxMsgLen := by decide
  have hmask : banMask (ircCreateBan mask) = some mask := by
    rw [hban, mask_of_ircCreateBan hban]
    simp [banMask]
  have hown : ircBanString [] (ircCreateBan mask) = some mask :=
    (ircBanString_eq_some hempty).mpr ⟨mask, hmask, by simpa using hlt, rfl⟩
  have hperm : (masks.map (fun m => ircCreateBan m.text) ++ [ircCreateBan mask]).Perm
      (ircCreateBan mask :: masks.map fun m => ircCreateBan m.text) :=
    List.perm_append_singleton _ _
  constructor
  · rintro ⟨k, text, hfound, hleft⟩ first hfirst
    obtain ⟨rest, rfl⟩ : ∃ rest, masks = first :: rest := by
      cases masks with
      | nil => exact absurd hfirst.symm (Option.some_ne_none _)
      | cons m rest => exact ⟨rest, by rw [Option.some.inj hfirst]⟩
    rw [List.map_cons, List.cons_append, findBan] at hfound
    obtain ⟨printed, hprinted, hfound⟩ := Option.bind_eq_some_iff.mp hfound
    obtain ⟨own, hownFirst, hfits, rfl⟩ := (ircBanString_eq_some hempty).mp hprinted
    rw [List.nil_append] at hfound
    split_ifs at hfound with harg
    · obtain ⟨hk, -⟩ := Prod.mk.inj (Option.some.inj hfound)
      obtain rfl := Option.some.inj hk
      have hsame : ircCreateBan first.text = ircCreateBan mask :=
        eq_of_swapRemove_perm (l := (first :: rest).map (fun m => ircCreateBan m.text) ++ _)
          rfl hperm hleft
      rw [mask_of_ircCreateBan (hsame.trans hban), ← mask_of_ircCreateBan hban]
    · have hlong : own.length < maxMsgLen := by simpa using hfits
      obtain ⟨i, ban, other, rfl, hi, hother, hne⟩ :=
        findBan_behind (banMask_ne_nil hownFirst) hlong hfound
      have hplace : ((first :: rest).map (fun m => ircCreateBan m.text) ++
          [ircCreateBan mask])[0 + 1 + i]? = some ban := by
        rw [Nat.zero_add, Nat.add_comm, List.map_cons, List.cons_append, List.getElem?_cons_succ]
        exact hi
      rw [eq_of_swapRemove_perm hplace hperm hleft, hmask] at hother
      exact absurd (Option.some.inj hother).symm hne
  · intro hfirst
    obtain ⟨rest, hrest⟩ : ∃ rest, masks.map (fun m => ircCreateBan m.text) ++ [ircCreateBan mask] =
        ircCreateBan mask :: rest := by
      cases masks with
      | nil => exact ⟨[], rfl⟩
      | cons m rest =>
        rw [List.map_cons, hfirst m rfl]
        exact ⟨_, rfl⟩
    refine ⟨0, mask, ?_, ?_⟩
    · rw [hrest, findBan, hown, Option.bind_some, if_pos rfl]
    · have hhead : (masks.map (fun m => ircCreateBan m.text) ++ [ircCreateBan mask])[0]? =
          some (ircCreateBan mask) := by rw [hrest]; rfl
      obtain ⟨hzero, hget⟩ := List.getElem?_eq_some_iff.mp hhead
      have hleft := swapRemove_perm hzero
      rw [hget] at hleft
      exact (hleft.trans hperm).cons_inv

/-! ## What a ban is compared with -/

variable {nick : Option (List UInt8)} {data : ClientData}

theorem partMatches_some {field : Option (List UInt8)} {regex : List UInt8} :
    PartMatches field (some regex) ↔ matchesPtr field (some regex) = some true :=
  ⟨fun h => h regex rfl, fun h _ hregex => Option.some.inj hregex ▸ h⟩

theorem matchesPtr_none (text : Option (List UInt8)) : matchesPtr text none = none := by
  cases text <;> rfl

theorem banned_iff (nick : Option (List UInt8)) (data : ClientData) (n u h : List UInt8) :
    (∃ banned, ircClientBanned nick data ⟨some n, some u, some h⟩ = some banned ∧
      (banned = true ↔ PartMatches nick (some n) ∧ PartMatches data.user (some u) ∧
        PartMatches data.host (some h))) ↔ Compared nick data n u h := by
  have hcompared : Compared nick data n u h ↔ Compares nick n ∧
      (PartMatches nick (some n) → Compares data.user u) ∧
      (PartMatches nick (some n) → PartMatches data.user (some u) → Compares data.host h) :=
    ⟨fun hall => ⟨hall.byNick, hall.byUser, hall.byHost⟩, fun hall => ⟨hall.1, hall.2.1, hall.2.2⟩⟩
  rw [hcompared]
  unfold ircClientBanned Compares
  simp only [partMatches_some]
  -- the fields are compared one after the other, until one does not match
  cases matchesPtr nick (some n) with
  | none => simp
  | some first =>
    cases first with
    | false => simp
    | true =>
      cases matchesPtr data.user (some u) with
      | none => simp
      | some second =>
        cases second with
        | false => simp
        | true =>
          cases matchesPtr data.host (some h) with
          | none => simp
          | some third => simp

/-! ## Which masks hold -/

theorem whole_of_prints {text : List UInt8} (hlt : mask.length < maxMsgLen)
    (hparts : HasParts mask parts)
    (hprints : ircBanString text (ircCreateBan mask) = some mask)
    (hbanned : ∃ banned, ircClientBanned nick data (ircCreateBan mask) = some banned) :
    text = [] ∧ ∃ n u h, parts = ⟨some n, some u, some h⟩ ∧ n ≠ [] ∧ u ≠ [] ∧ h ≠ [] := by
  have htext : text.length < maxMsgLen :=
    Nat.lt_of_le_of_lt (ircBanString_appended hprints).1.length_le hlt
  obtain ⟨own, hown, -, hall⟩ := (ircBanString_eq_some htext).mp hprints
  obtain ⟨banned, hbanned⟩ := hbanned
  obtain ⟨matched, hnick, -⟩ := Option.bind_eq_some_iff.mp hbanned
  have hnone : (ircCreateBan mask).nick ≠ none := by
    intro hnone
    rw [hnone, matchesPtr_none] at hnick
    exact absurd hnick.symm (Option.some_ne_none _)
  rw [ircCreateBan_parts hparts] at hown hnone
  have hlengths := congrArg List.length hall
  cases hparts with
  | host => exact absurd rfl hnone
  | user => exact absurd rfl hnone
  | nick => exact absurd hown.symm (Option.some_ne_none _)
  | @full n u h hmark hn hat =>
    obtain ⟨host, hhost, rfl⟩ := Option.map_eq_some_iff.mp hown
    obtain ⟨hh, rfl⟩ := ne_nil_of_svzStrdup hhost
    obtain ⟨nick', hnick'⟩ := Option.ne_none_iff_exists'.mp hnone
    obtain ⟨hn', rfl⟩ := ne_nil_of_svzStrdup hnick'
    dsimp only [Option.bind_some] at hlengths hall
    rw [svzStrdup_eq hn'] at hlengths hall
    by_cases hu : u = []
    · -- the text and the mask differ by the second mark only
      rw [hu] at hlengths hall
      simp only [svzStrdup, if_true, Option.elim_some, Option.elim_none, List.append_nil,
        List.nil_append, List.length_append, List.length_cons, List.length_nil,
        List.append_assoc] at hlengths hall
      obtain ⟨c, rfl⟩ := List.length_eq_one_iff.mp (by omega : text.length = 1)
      obtain ⟨d, n, rfl⟩ := List.exists_cons_of_ne_nil hn'
      have hcount := congrArg (List.count 64) hall
      obtain ⟨rfl, -⟩ := List.cons_eq_cons.mp hall
      have hc : ¬ c = 64 := fun hsame => hn (hsame ▸ List.mem_cons_self)
      simp [List.count_append, hc] at hcount
    · rw [svzStrdup_eq hu] at hlengths
      refine ⟨?_, _, _, _, rfl, hn', hu, hh⟩
      simp only [Option.elim_some, List.length_append, List.length_cons,
        List.length_nil] at hlengths
      exact List.eq_nil_of_length_eq_zero (by omega)

end Serveez.Irc.Channels
