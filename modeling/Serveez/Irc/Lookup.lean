import Serveez.Irc.Names
import Serveez.Irc.Entries

/-!
# Looking up names

Whether the hashes of clients and channels find equal names alike. An entry of a hash is a client or
a channel under its name. A lookup compares the name with the entries of its code: it fails for a
name that is equal to one of the hash and has another code, and reads the table outside for the
names of the hash that have a byte from 128 on.

* `hashGet_eq`: what is found, when no byte of a name is outside the table.
* `foundAlike_iff`: the argument for both hashes.
* `caseBlind_iff`: equal names are found alike exactly if no name in the hashes has a byte outside
  the table, or a character with two cases among its last 59.
-/

namespace Serveez.Irc

open Lib

/-- The entries of a hash. -/
abbrev Entries := List ((UInt64 × List UInt8) × Nat)

/-- `svz_hash_get`, where entries of another code are not compared. An entry has its name in lower
case, which is the same name for the comparison. -/
def hashGet (name : List UInt8) : Entries → Option (Option Nat)
  | [] => some none
  | e :: entries =>
    if e.1.1 = Hash.hashCode name then
      (ircStringEqual e.1.2 name).bind fun equal =>
        if equal = 0 then some (some e.2) else hashGet name entries
    else hashGet name entries

/-- Equal names are found, and alike. A name is a string without a NUL. -/
def FoundAlike (entries : Entries) : Prop :=
  ∀ a b, 0 ∉ a → 0 ∉ b → ircStringEqual a b = some 0 →
    ∃ found, hashGet a entries = some found ∧ hashGet b entries = some found

/-! ## One hash -/

theorem lcset_idem (c : UInt8) : lcset (lcset c) = lcset c := by
  refine forall_uint8 (P := fun c => lcset (lcset c) = lcset c) ?_ c
  decide +kernel

theorem map_lcset_idem (name : List UInt8) : (name.map lcset).map lcset = name.map lcset := by
  rw [List.map_map]
  exact List.map_congr_left fun c _ => lcset_idem c

theorem zero_notMem_lower {name : List UInt8} (h : 0 ∉ name) : 0 ∉ name.map lcset := by
  intro hzero
  obtain ⟨c, hc, hlower⟩ := List.mem_map.mp hzero
  exact lcset_ne_zero (fun h0 => h (h0 ▸ hc)) hlower

theorem tableName_congr {a b : List UInt8} (ha : 0 ∉ a) (hb : 0 ∉ b)
    (hsame : a.map lcset = b.map lcset) (h : TableName a) : TableName b :=
  have hequal := (ircStringEqual_eq_zero_iff ha hb).mpr ⟨h, hsame⟩
  (ircStringEqual_cases a b).elim (fun hin => (hin.2 ((ircEquals_iff ha hb).mpr hsame)).2)
    fun hout => absurd (hout.1.symm.trans hequal) (Option.some_ne_none 0).symm

/-- The entries of a hash are under the names that have been entered. -/
structure EnteredAs (entered : List UInt8 → Prop) (entries : Entries) : Prop where
  text : ∀ name, entered name → 0 ∉ name
  entry : ∀ name, entered name → ∃ id, (ircKey name, id) ∈ entries
  named : ∀ e ∈ entries, ∃ name, entered name ∧ e.1 = ircKey name
  ids : ∀ e ∈ entries, ∀ e' ∈ entries, e.2 = e'.2 → e = e'

variable {entered : List UInt8 → Prop} {entries : Entries}

theorem hashGet_eq (hnamed : ∀ e ∈ entries, ∃ n, (0 ∉ n ∧ TableName n) ∧ e.1 = ircKey n)
    {name : List UInt8} (hname : 0 ∉ name) (htable : TableName name) :
    hashGet name entries = some ((findKey Prod.fst (ircKey name) entries).map Prod.snd) := by
  induction entries with
  | nil => rfl
  | cons e entries ih =>
    obtain ⟨⟨n, ⟨hn, hin⟩, hkey⟩, hrest⟩ := List.forall_mem_cons.mp hnamed
    have hlower := zero_notMem_lower hn
    have hcompare : ircStringEqual e.1.2 name = some (ircEquals e.1.2 name) := by
      rw [hkey]
      exact ircStringEqual_eq (tableName_congr hn hlower (map_lcset_idem n).symm hin) htable
    have hequal : ircEquals e.1.2 name = 0 ↔ e.1.2 = name.map lcset := by
      rw [hkey]
      exact (ircEquals_iff hlower hname).trans (by rw [map_lcset_idem]; rfl)
    rw [hashGet, hcompare, Option.bind_some, ih hrest, findKey, findKey]
    by_cases hsame : e.1 = ircKey name
    · rw [List.find?_cons_of_pos (by simpa using hsame), hsame]
      rw [hsame] at hequal
      have hcode : (ircKey name).1 = Hash.hashCode name := rfl
      rw [if_pos hcode, if_pos (hequal.mpr rfl)]
      rfl
    · rw [List.find?_cons_of_neg (by simpa using hsame)]
      split_ifs with hcode hzero
      · exact absurd (Prod.ext hcode (hequal.mp hzero)) hsame
      · rfl
      · rfl

theorem tableName_of_found {name : List UInt8} {id : Nat} (hname : 0 ∉ name)
    (hentry : (ircKey name, id) ∈ entries) (hnamed : ∀ e ∈ entries, 0 ∉ e.1.2)
    (hfound : (hashGet name entries).isSome = true) : TableName name := by
  induction entries with
  | nil => exact absurd hentry List.not_mem_nil
  | cons e entries ih =>
    obtain ⟨hzero, hrest⟩ := List.forall_mem_cons.mp hnamed
    rw [hashGet] at hfound
    split_ifs at hfound with hcode
    · -- the comparison with this entry has a result
      rcases ircStringEqual_cases e.1.2 name with ⟨hcompare, hinside⟩ | ⟨hnone, -⟩
      · by_cases hequal : ircEquals e.1.2 name = 0
        · exact (hinside hequal).2
        rw [hcompare, Option.bind_some, if_neg hequal] at hfound
        refine ih ((List.mem_cons.mp hentry).resolve_left fun hown => hequal ?_) hrest hfound
        rw [ircEquals_iff hzero hname, ← hown]
        exact map_lcset_idem name
      · rw [hnone] at hfound
        cases hfound
    · refine ih ((List.mem_cons.mp hentry).resolve_left fun hown => hcode ?_) hrest hfound
      rw [← hown]
      rfl

/-- The names of a hash can be looked up, and equal names are found alike, exactly if the names of
the hash are inside the table and have no character with two cases that decides about the code. -/
theorem foundAlike_iff (h : EnteredAs entered entries) :
    ((∀ name, entered name → (hashGet name entries).isSome = true) ∧ FoundAlike entries) ↔
      ∀ name, entered name → TableName name ∧ Caseless name := by
  have hget (htables : ∀ name, entered name → TableName name) {a : List UInt8} (ha : 0 ∉ a)
      (hin : TableName a) := by
    refine @hashGet_eq entries (fun e he => ?_) a ha hin
    obtain ⟨n, hn, hkey⟩ := h.named e he
    exact ⟨n, ⟨h.text n hn, htables n hn⟩, hkey⟩
  constructor
  · rintro ⟨hfound, halike⟩
    have htables (name : List UInt8) (hname : entered name) : TableName name := by
      obtain ⟨id, hentry⟩ := h.entry name hname
      refine tableName_of_found (h.text name hname) hentry (fun e he => ?_) (hfound name hname)
      obtain ⟨n, hn, hkey⟩ := h.named e he
      rw [hkey]
      exact zero_notMem_lower (h.text n hn)
    intro name hname
    refine ⟨htables name hname, ?_⟩
    by_contra hcased
    have htext := h.text name hname
    obtain ⟨b, hb, hsame, hne⟩ := exists_other_case hcased htext
    obtain ⟨found, ha, hb'⟩ := halike name b htext hb
      ((ircStringEqual_eq_zero_iff htext hb).mpr ⟨htables name hname, hsame⟩)
    rw [hget htables htext (htables name hname)] at ha
    rw [hget htables hb (tableName_congr htext hb hsame (htables name hname)), ← ha] at hb'
    obtain ⟨id, hentry⟩ := h.entry name hname
    cases hown : findKey Prod.fst (ircKey name) entries with
    | none => exact findKey_none.mp hown _ hentry rfl
    | some e =>
      rw [hown] at hb'
      obtain ⟨e', he', hid⟩ := Option.map_eq_some_iff.mp (Option.some.inj hb')
      obtain ⟨hmem, hkey⟩ := findKey_mem hown
      obtain ⟨hmem', hkey'⟩ := findKey_mem he'
      exact hne (by rw [← hkey, ← hkey', h.ids e' hmem' e hmem hid])
  · intro hnames
    have htables (name : List UInt8) (hname : entered name) := (hnames name hname).1
    refine ⟨fun name hname => ?_, fun a b ha hb hequal => ?_⟩
    · rw [hget htables (h.text name hname) (htables name hname)]
      rfl
    · obtain ⟨hin, hsame⟩ := (ircStringEqual_eq_zero_iff ha hb).mp hequal
      refine ⟨_, hget htables ha hin, ?_⟩
      rw [hget htables hb (tableName_congr ha hb hsame hin)]
      -- an entry of either name has no character with two cases
      have hentry {a b : List UInt8} (ha : 0 ∉ a) (hb : 0 ∉ b) (hsame : a.map lcset = b.map lcset)
          {e : (UInt64 × List UInt8) × Nat} (he : findKey Prod.fst (ircKey a) entries = some e) :
          ircKey a = ircKey b := by
        obtain ⟨hmem, hkey⟩ := findKey_mem he
        obtain ⟨n, hn, hown⟩ := h.named e hmem
        exact ((hnames n hn).2.of_key (h.text n hn) ha (hown.symm.trans hkey)).ircKey_eq ha hb hsame
      cases hfind : findKey Prod.fst (ircKey a) entries with
      | some e => rw [← hentry ha hb hsame hfind, hfind]
      | none =>
        cases hfind' : findKey Prod.fst (ircKey b) entries with
        | none => rfl
        | some e =>
          rw [hentry hb ha hsame.symm hfind', hfind] at hfind'
          cases hfind'

/-! ## The hashes of the server -/

variable {s : IrcState (UInt64 × List UInt8)}

/-- The client is in the hash. -/
def InHash (s : IrcState (UInt64 × List UInt8)) (c : IrcClient) : Prop :=
  ∃ e ∈ s.clients, e.2 = c.id

instance : DecidablePred (InHash s) := fun c =>
  inferInstanceAs (Decidable (∃ e ∈ s.clients, e.2 = c.id))

/-- The nick of a client of the hash. -/
def NickOf (s : IrcState (UInt64 × List UInt8)) (nick : List UInt8) : Prop :=
  ∃ c ∈ s.live, InHash s c ∧ nick ∈ c.nick

/-- The name of a channel. -/
def NameOf (s : IrcState (UInt64 × List UInt8)) (name : List UInt8) : Prop :=
  ∃ ch ∈ s.rooms, ch.name = name

/-- The names of the hashes can be looked up, equal names are found alike, and no two clients or
channels of the hashes have equal names. -/
structure CaseBlind (s : IrcState (UInt64 × List UInt8)) : Prop where
  foundNick : ∀ nick, NickOf s nick → (hashGet nick s.clients).isSome = true
  foundChannel : ∀ name, NameOf s name → (hashGet name s.channels).isSome = true
  findNick : FoundAlike s.clients
  findChannel : FoundAlike s.channels
  clients : ∀ c ∈ s.live, ∀ d ∈ s.live, InHash s c → InHash s d → ∀ a ∈ c.nick, ∀ b ∈ d.nick,
    ircStringEqual a b = some 0 → c = d
  channels : ∀ ch ∈ s.rooms, ∀ ch' ∈ s.rooms, ircStringEqual ch.name ch'.name = some 0 → ch = ch'

/-- No name in the hashes has a byte outside the table, or a character with two cases among its
last 59. -/
def CaselessNames (s : IrcState (UInt64 × List UInt8)) : Prop :=
  (∀ c ∈ s.live, InHash s c → ∀ nick ∈ c.nick, TableName nick ∧ Caseless nick) ∧
    ∀ ch ∈ s.rooms, TableName ch.name ∧ Caseless ch.name

instance : DecidablePred CaselessNames := fun s =>
  inferInstanceAs (Decidable ((∀ c ∈ s.live, InHash s c → ∀ nick ∈ c.nick,
    TableName nick ∧ Caseless nick) ∧ ∀ ch ∈ s.rooms, TableName ch.name ∧ Caseless ch.name))

theorem Entered.inHash (h : Entered ircKey s) {c : IrcClient} (hc : c ∈ s.live)
    (hin : InHash s c) {nick : List UInt8} (hnick : nick ∈ c.nick) :
    (ircKey nick, c.id) ∈ s.clients ∧ 0 ∉ nick := by
  obtain ⟨e, he, hid⟩ := hin
  have hmem : c.plain ∈ s.live.map IrcClient.plain := List.mem_map_of_mem hc
  have hown := (h.named.of_entry hmem he hid).2
  have hsome : c.plain.nick = some nick := hnick
  rw [hsome] at hown
  refine ⟨?_, h.named.text c.plain hmem nick hsome⟩
  rw [show ircKey nick = e.1 from Option.some.inj hown, ← hid]
  exact he

theorem Entered.nicks (h : Entered ircKey s) : EnteredAs (NickOf s) s.clients := by
  have hnamed : ∀ e ∈ s.clients, ∃ c ∈ s.live, c.id = e.2 ∧ c.nick.map ircKey = some e.1 := by
    intro e he
    obtain ⟨_, hplain, hid, -, hnick⟩ := h.named.entry e he
    obtain ⟨c, hc, rfl⟩ := List.mem_map.mp hplain
    exact ⟨c, hc, hid, hnick⟩
  constructor
  · rintro nick ⟨c, hc, hin, hnick⟩
    exact (h.inHash hc hin hnick).2
  · rintro nick ⟨c, hc, hin, hnick⟩
    exact ⟨c.id, (h.inHash hc hin hnick).1⟩
  · intro e he
    obtain ⟨c, hc, hid, hnick⟩ := hnamed e he
    obtain ⟨nick, hnick, hkey⟩ := Option.map_eq_some_iff.mp hnick
    exact ⟨nick, ⟨c, hc, ⟨e, he, hid.symm⟩, hnick⟩, hkey.symm⟩
  · intro e he e' he' hids
    obtain ⟨c, hc, hid, hnick⟩ := hnamed e he
    obtain ⟨d, hd, hid', hnick'⟩ := hnamed e' he'
    obtain rfl := h.live.eq_of_key hc hd (by rw [hid, hid', hids])
    exact Prod.ext (Option.some.inj (hnick.symm.trans hnick')) hids

theorem Entered.channel_entry (h : Entered ircKey s) {ch : IrcChannel} (hch : ch ∈ s.rooms) :
    (ircKey ch.name, ch.id) ∈ s.channels := by
  exact h.rooms.entered (ch.id, ch.name) (List.mem_map_of_mem (f := fun ch => (ch.id, ch.name)) hch)

theorem Entered.names (h : Entered ircKey s) (htext : ∀ ch ∈ s.rooms, 0 ∉ ch.name) :
    EnteredAs (NameOf s) s.channels := by
  have hnamed : ∀ e ∈ s.channels, ∃ ch ∈ s.rooms, e = (ircKey ch.name, ch.id) := by
    intro e he
    obtain ⟨name, hname, hsame⟩ := h.rooms.entry e he
    obtain ⟨ch, hch, hpair⟩ := List.mem_map.mp hname
    obtain ⟨hid, rfl⟩ := Prod.mk.inj hpair
    exact ⟨ch, hch, Prod.ext hsame.symm hid.symm⟩
  constructor
  · rintro name ⟨ch, hch, rfl⟩
    exact htext ch hch
  · rintro name ⟨ch, hch, rfl⟩
    exact ⟨ch.id, h.channel_entry hch⟩
  · intro e he
    obtain ⟨ch, hch, rfl⟩ := hnamed e he
    exact ⟨ch.name, ⟨ch, hch, rfl⟩, rfl⟩
  · intro e he e' he' hids
    obtain ⟨ch, hch, rfl⟩ := hnamed e he
    obtain ⟨ch', hch', rfl⟩ := hnamed e' he'
    rw [h.rooms_keyed.eq_of_key hch hch' hids]

theorem caseBlind_iff (cfg : IrcConfig) (events : List IrcEvent)
    (hrun : ircRun cfg ircKey events = some s) (htext : ∀ ch ∈ s.rooms, 0 ∉ ch.name) :
    CaseBlind s ↔ CaselessNames s := by
  have h := ircRun_entered hrun
  have hnicks := foundAlike_iff h.nicks
  have hnames := foundAlike_iff (h.names htext)
  constructor
  · intro hblind
    exact ⟨fun c hc hin nick hnick => hnicks.mp ⟨hblind.foundNick, hblind.findNick⟩ nick
        ⟨c, hc, hin, hnick⟩,
      fun ch hch => hnames.mp ⟨hblind.foundChannel, hblind.findChannel⟩ ch.name ⟨ch, hch, rfl⟩⟩
  · rintro ⟨hclients, hchannels⟩
    have hinside : ∀ nick, NickOf s nick → TableName nick ∧ Caseless nick := by
      rintro nick ⟨c, hc, hin, hnick⟩
      exact hclients c hc hin nick hnick
    have hinside' : ∀ name, NameOf s name → TableName name ∧ Caseless name := by
      rintro name ⟨ch, hch, rfl⟩
      exact hchannels ch hch
    obtain ⟨hfound, hfind⟩ := hnicks.mpr hinside
    obtain ⟨hfound', hfind'⟩ := hnames.mpr hinside'
    refine ⟨hfound, hfound', hfind, hfind', ?_, ?_⟩
    · intro c hc d hd hinc hind a ha b hb hequal
      obtain ⟨hentry, htext⟩ := h.inHash hc hinc ha
      obtain ⟨hentry', htext'⟩ := h.inHash hd hind hb
      have hsame := ((ircStringEqual_eq_zero_iff htext htext').mp hequal).2
      have hkey := (hclients c hc hinc a ha).2.ircKey_eq htext htext' hsame
      rw [← hkey] at hentry'
      exact h.live.eq_of_key hc hd
        (congrArg Prod.snd (h.named.keys.eq_of_key hentry hentry' rfl))
    · intro ch hch ch' hch' hequal
      have hsame := ((ircStringEqual_eq_zero_iff (htext ch hch) (htext ch' hch')).mp hequal).2
      have hkey := (hchannels ch hch).2.ircKey_eq (htext ch hch) (htext ch' hch') hsame
      have hentry' := h.channel_entry hch'
      rw [← hkey] at hentry'
      exact h.rooms_keyed.eq_of_key hch hch'
        (congrArg Prod.snd (h.rooms.keys.eq_of_key (h.channel_entry hch) hentry' rfl))

/-- A client that enters with a nick, and joins a channel. -/
def enterAndJoin (nick chan : List UInt8) : List IrcEvent :=
  [.connect 1 1, .request 1 (.nick (some nick)), .request 1 (.user true), .identDone 1, .rdnsDone 1,
    .idle 1 true, .request 1 (.join [⟨chan, true, 2⟩])]

theorem caseBlind_underscore :
    ∃ s, ircRun ⟨10, none⟩ ircKey (enterAndJoin [95] [35, 49]) = some s ∧ CaseBlind s := by
  have hrun : (ircRun ⟨10, none⟩ ircKey (enterAndJoin [95] [35, 49])).any
      (fun s => decide (CaselessNames s ∧ ∀ ch ∈ s.rooms, 0 ∉ ch.name)) = true := by
    decide +kernel
  obtain ⟨s, hs, hnames⟩ := (Option.any_eq_true _ _).mp hrun
  obtain ⟨hcaseless, htext⟩ := of_decide_eq_true hnames
  exact ⟨s, hs, (caseBlind_iff ⟨10, none⟩ _ hs htext).mpr hcaseless⟩

/-- A client with the nick `a` is not found as `A`. -/
theorem letter_not_caseBlind :
    ¬ ∀ (cfg : IrcConfig) (events : List IrcEvent) (s : IrcState (UInt64 × List UInt8)),
      ircRun cfg ircKey events = some s → (∀ ch ∈ s.rooms, 0 ∉ ch.name) → CaseBlind s := by
  intro hall
  have hrun : (ircRun ⟨10, none⟩ ircKey (enterAndJoin [97] [35, 49])).map
      (fun s => (hashGet [97] s.clients, hashGet [65] s.clients,
        decide (∀ ch ∈ s.rooms, 0 ∉ ch.name))) = some (some (some 1), some none, true) := by
    decide +kernel
  obtain ⟨s, hs, hfind⟩ := Option.map_eq_some_iff.mp hrun
  obtain ⟨hlower, hupper, htext⟩ := by simpa using hfind
  obtain ⟨found, hfound, hother⟩ :=
    (hall _ _ s hs htext).findNick [97] [65] (by decide) (by decide) (by decide)
  rw [hlower, Option.some_inj] at hfound
  rw [hupper, ← hfound] at hother
  exact absurd (Option.some.inj hother).symm (Option.some_ne_none 1)

end Serveez.Irc
