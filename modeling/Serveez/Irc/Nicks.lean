import Serveez.Irc.Moves

/-!
# The hash of nicks

`Listed` says what the hash of clients, the clients without their channels and the connections
have to do with each other: the entries of the hash are the registered clients under their nicks.

* `Listed.update`: one client changes, with its entry; `Listed.flags`, `Listed.named`,
  `Listed.added`, `Listed.renamed` are the changes that the commands make.
* `Listed.connect`, `Listed.removed`: a client comes and goes.
-/

set_option linter.unusedSectionVars false

namespace Serveez.Irc

open Lib

variable {κ : Type} [DecidableEq κ] {key : List UInt8 → κ} {users : Int}
  {clients clients' : List (κ × Nat)} {live : List IrcClient}
  {data : Nat → Option (Option Nat)}

structure Listed (key : List UInt8 → κ) (users : Int) (clients : List (κ × Nat))
    (live : List IrcClient) (data : Nat → Option (Option Nat)) : Prop where
  keyed : Keyed IrcClient.id live
  names : Keyed Prod.fst clients
  entry : ∀ e ∈ clients, ∃ c ∈ live, c.id = e.2 ∧ c.registered = true ∧ c.nick.map key = some e.1
  found : ∀ c ∈ live, c.registered = true → ∃ nick, c.nick = some nick ∧ (key nick, c.id) ∈ clients
  nicked : ∀ c ∈ live, c.flag.nick = true → c.nick.isSome = true
  flagged : ∀ c ∈ live, c.registered = true → c.flag.nick = true
  count : users = live.length
  own : ∀ sock id, data sock = some (some id) → ∃ c ∈ live, c.id = id ∧ c.sock = sock

namespace Listed

variable {c : IrcClient}

theorem of_entry (h : Listed key users clients live data) (hc : c ∈ live) {e : κ × Nat}
    (he : e ∈ clients) (hid : e.2 = c.id) :
    c.registered = true ∧ c.nick.map key = some e.1 := by
  obtain ⟨a, ha, hsame, hregistered, hnick⟩ := h.entry e he
  obtain rfl := h.keyed.eq_of_key ha hc (hsame.trans hid)
  exact ⟨hregistered, hnick⟩

theorem not_entry (h : Listed key users clients live data) (hc : c ∈ live)
    (hnot : c.registered = false) : ∀ e ∈ clients, e.2 ≠ c.id := by
  intro e he hid
  rw [(h.of_entry hc he hid).1] at hnot
  exact nomatch hnot

/-- One client changes, and in the hash only its entry. -/
theorem update (h : Listed key users clients live data) {f : IrcClient → IrcClient}
    (hc : findKey IrcClient.id c.id live = some c)
    (hf : ∀ a, (f a).id = a.id ∧ (f a).sock = a.sock) (hnames : Keyed Prod.fst clients')
    (hentry : ∀ e ∈ clients', e ∈ clients ∧ e.2 ≠ c.id ∨
      e.2 = c.id ∧ (f c).registered = true ∧ (f c).nick.map key = some e.1)
    (hothers : ∀ e ∈ clients, e.2 ≠ c.id → e ∈ clients') (hfound : (f c).registered = true →
      ∃ nick, (f c).nick = some nick ∧ (key nick, c.id) ∈ clients')
    (hnick : (f c).flag.nick = true → (f c).nick.isSome = true)
    (hflag : (f c).registered = true → (f c).flag.nick = true) :
    Listed key users clients' (modifyKey IrcClient.id c.id f live) data := by
  have hmem (a : IrcClient) : a ∈ modifyKey IrcClient.id c.id f live ↔
      a = f c ∨ a ∈ live ∧ a.id ≠ c.id := mem_modifyKey h.keyed hc
  constructor
  · exact h.keyed.modifyKey c.id (fun a => (hf a).1)
  · exact hnames
  · intro e he
    rcases hentry e he with ⟨he, hne⟩ | ⟨hid, hown⟩
    · obtain ⟨a, ha, hid, hown⟩ := h.entry e he
      exact ⟨a, (hmem a).mpr (Or.inr ⟨ha, hid ▸ hne⟩), hid, hown⟩
    · exact ⟨f c, (hmem _).mpr (Or.inl rfl), (hf c).1.trans hid.symm, hown⟩
  · intro a ha hregistered
    rcases (hmem a).mp ha with rfl | ⟨ha, hne⟩
    · rw [(hf c).1]
      exact hfound hregistered
    · obtain ⟨nick, hnick, he⟩ := h.found a ha hregistered
      exact ⟨nick, hnick, hothers _ he hne⟩
  · intro a ha
    rcases (hmem a).mp ha with rfl | ⟨ha, -⟩
    · exact hnick
    · exact h.nicked a ha
  · intro a ha
    rcases (hmem a).mp ha with rfl | ⟨ha, -⟩
    · exact hflag
    · exact h.flagged a ha
  · unfold modifyKey
    rw [List.length_map]
    exact h.count
  · intro sock id hdata
    obtain ⟨a, ha, rfl, rfl⟩ := h.own sock id hdata
    by_cases hsame : a.id = c.id
    · obtain rfl := h.keyed.eq_of_key ha (findKey_mem hc).1 hsame
      exact ⟨f a, (hmem _).mpr (Or.inl rfl), hf a⟩
    · exact ⟨a, (hmem a).mpr (Or.inr ⟨ha, hsame⟩), rfl, rfl⟩

theorem connect (h : Listed key users clients live data)
    (hfresh : findKey IrcClient.id c.id live = none) (hregistered : c.registered = false)
    (hflag : c.flag.nick = false) :
    Listed key (users + 1) clients (c :: live)
      (Function.update data c.sock (some (some c.id))) := by
  constructor
  · exact h.keyed.cons hfresh
  · exact h.names
  · intro e he
    obtain ⟨a, ha, hown⟩ := h.entry e he
    exact ⟨a, List.mem_cons_of_mem _ ha, hown⟩
  · intro a ha htrue
    rcases List.mem_cons.mp ha with rfl | ha
    · exact nomatch hregistered.symm.trans htrue
    · exact h.found a ha htrue
  · intro a ha htrue
    rcases List.mem_cons.mp ha with rfl | ha
    · exact nomatch hflag.symm.trans htrue
    · exact h.nicked a ha htrue
  · intro a ha htrue
    rcases List.mem_cons.mp ha with rfl | ha
    · exact nomatch hregistered.symm.trans htrue
    · exact h.flagged a ha htrue
  · rw [h.count, List.length_cons]
    push_cast
    rfl
  · intro sock id hdata
    by_cases hsock : sock = c.sock
    · rw [hsock, Function.update_self] at hdata
      obtain rfl := Option.some.inj (Option.some.inj hdata)
      exact ⟨c, List.mem_cons_self, rfl, hsock.symm⟩
    · rw [Function.update_of_ne hsock] at hdata
      obtain ⟨a, ha, hown⟩ := h.own sock id hdata
      exact ⟨a, List.mem_cons_of_mem _ ha, hown⟩

theorem remove (h : Listed key users clients live data)
    (hc : findKey IrcClient.id c.id live = some c) (hnames : Keyed Prod.fst clients')
    (hclients : ∀ e, e ∈ clients' ↔ e ∈ clients ∧ e.2 ≠ c.id) :
    Listed key (users - 1) clients' (removeKey IrcClient.id c.id live)
      (Function.update data c.sock (some none)) := by
  have hlength := length_removeKey h.keyed hc
  constructor
  · exact h.keyed.removeKey c.id
  · exact hnames
  · intro e he
    obtain ⟨he, hne⟩ := (hclients e).mp he
    obtain ⟨a, ha, hid, hown⟩ := h.entry e he
    exact ⟨a, mem_removeKey.mpr ⟨ha, hid ▸ hne⟩, hid, hown⟩
  · intro a ha hregistered
    obtain ⟨ha, hne⟩ := mem_removeKey.mp ha
    obtain ⟨nick, hnick, he⟩ := h.found a ha hregistered
    exact ⟨nick, hnick, (hclients _).mpr ⟨he, hne⟩⟩
  · exact fun a ha => h.nicked a (mem_removeKey.mp ha).1
  · exact fun a ha => h.flagged a (mem_removeKey.mp ha).1
  · rw [h.count]
    omega
  · intro sock id hdata
    by_cases hsock : sock = c.sock
    · rw [hsock, Function.update_self] at hdata
      exact nomatch hdata
    · rw [Function.update_of_ne hsock] at hdata
      obtain ⟨a, ha, rfl, rfl⟩ := h.own sock id hdata
      refine ⟨a, mem_removeKey.mpr ⟨ha, fun hsame => hsock ?_⟩, rfl, rfl⟩
      rw [h.keyed.eq_of_key ha (findKey_mem hc).1 hsame]

/-- The connection without a client is gone. -/
theorem disconnect (h : Listed key users clients live data) (sock : Nat) :
    Listed key users clients live (Function.update data sock none) := by
  refine ⟨h.keyed, h.names, h.entry, h.found, h.nicked, h.flagged, h.count, ?_⟩
  intro other id hdata
  by_cases hsame : other = sock
  · rw [hsame, Function.update_self] at hdata
    exact nomatch hdata
  · rw [Function.update_of_ne hsame] at hdata
    exact h.own other id hdata

/-! ## Changes of one client -/

theorem flags (h : Listed key users clients live data) {f : IrcClient → IrcClient}
    (hc : findKey IrcClient.id c.id live = some c)
    (hf : ∀ a, (f a).id = a.id ∧ (f a).sock = a.sock)
    (hkeep : (f c).nick = c.nick ∧ (f c).registered = c.registered ∧
      (f c).flag.nick = c.flag.nick) :
    Listed key users clients (modifyKey IrcClient.id c.id f live) data := by
  obtain ⟨hmem, -⟩ := findKey_mem hc
  obtain ⟨hnick, hregistered, hflag⟩ := hkeep
  apply h.update hc hf h.names
  · intro e he
    by_cases hid : e.2 = c.id
    · rw [hregistered, hnick]
      exact Or.inr ⟨hid, h.of_entry hmem he hid⟩
    · exact Or.inl ⟨he, hid⟩
  · exact fun e he _ => he
  · rw [hregistered, hnick]
    exact h.found c hmem
  · rw [hflag, hnick]
    exact h.nicked c hmem
  · rw [hregistered, hflag]
    exact h.flagged c hmem

theorem named (h : Listed key users clients live data) {f : IrcClient → IrcClient}
    (hc : findKey IrcClient.id c.id live = some c)
    (hf : ∀ a, (f a).id = a.id ∧ (f a).sock = a.sock) (hnot : c.registered = false)
    (hkeep : (f c).registered = c.registered) (hnick : (f c).nick.isSome = true) :
    Listed key users clients (modifyKey IrcClient.id c.id f live) data := by
  obtain ⟨hmem, -⟩ := findKey_mem hc
  have hfalse : (f c).registered ≠ true := by rw [hkeep, hnot]; exact Bool.false_ne_true
  apply h.update hc hf h.names
  · exact fun e he => Or.inl ⟨he, h.not_entry hmem hnot e he⟩
  · exact fun e he _ => he
  · exact fun htrue => absurd htrue hfalse
  · exact fun _ => hnick
  · exact fun htrue => absurd htrue hfalse

theorem added (h : Listed key users clients live data) {f : IrcClient → IrcClient}
    {nick : List UInt8} (hc : findKey IrcClient.id c.id live = some c)
    (hf : ∀ a, (f a).id = a.id ∧ (f a).sock = a.sock) (hnot : c.registered = false)
    (hfree : findKey Prod.fst (key nick) clients = none)
    (hkeep : (f c).nick = some nick ∧ (f c).flag.nick = true ∧ (f c).registered = true) :
    Listed key users (putKey (key nick) c.id clients) (modifyKey IrcClient.id c.id f live)
      data := by
  obtain ⟨hmem, -⟩ := findKey_mem hc
  obtain ⟨hnick, hflag, hregistered⟩ := hkeep
  have hput : putKey (key nick) c.id clients = (key nick, c.id) :: clients := by
    rw [putKey, removeKey_of_ne (findKey_none.mp hfree)]
  rw [hput]
  apply h.update hc hf (h.names.cons hfree)
  · intro e he
    rcases List.mem_cons.mp he with rfl | he
    · refine Or.inr ⟨rfl, hregistered, ?_⟩
      rw [hnick, Option.map_some]
    · exact Or.inl ⟨he, h.not_entry hmem hnot e he⟩
  · exact fun e he _ => List.mem_cons_of_mem _ he
  · exact fun _ => ⟨nick, hnick, List.mem_cons_self⟩
  · intro _
    rw [hnick]
    rfl
  · exact fun _ => hflag

theorem renamed (h : Listed key users clients live data) {f : IrcClient → IrcClient}
    {old nick : List UInt8} (hc : findKey IrcClient.id c.id live = some c)
    (hf : ∀ a, (f a).id = a.id ∧ (f a).sock = a.sock) (hregistered : c.registered = true)
    (hold : c.nick = some old) (hfree : findKey Prod.fst (key nick) clients = none)
    (hkeep : (f c).nick = some nick ∧ (f c).flag.nick = true ∧ (f c).registered = true) :
    Listed key users (putKey (key nick) c.id (removeKey Prod.fst (key old) clients))
      (modifyKey IrcClient.id c.id f live) data := by
  obtain ⟨hmem, -⟩ := findKey_mem hc
  obtain ⟨hnick, hflag, hkeeps⟩ := hkeep
  have hnew := findKey_none.mp hfree
  -- the old entry is the only one of the client
  obtain ⟨nick', hnick', hown⟩ := h.found c hmem hregistered
  obtain rfl := Option.some.inj (hold.symm.trans hnick')
  have hothers : ∀ e ∈ clients, e.1 = key old ↔ e.2 = c.id := by
    intro e he
    constructor
    · intro hsame
      rw [h.names.eq_of_key he hown hsame]
    · intro hid
      have hentry := (h.of_entry hmem he hid).2
      rw [hold] at hentry
      exact (Option.some.inj hentry).symm
  have hput : putKey (key nick) c.id (removeKey Prod.fst (key old) clients) =
      (key nick, c.id) :: removeKey Prod.fst (key old) clients := by
    rw [putKey, removeKey_of_ne (fun e he => hnew e (mem_removeKey.mp he).1)]
  rw [hput]
  apply h.update hc hf
  · refine (h.names.removeKey (key old)).cons (findKey_none.mpr (fun e he => ?_))
    exact hnew e (mem_removeKey.mp he).1
  · intro e he
    rcases List.mem_cons.mp he with rfl | he
    · refine Or.inr ⟨rfl, hkeeps, ?_⟩
      rw [hnick, Option.map_some]
    · obtain ⟨he, hne⟩ := mem_removeKey.mp he
      exact Or.inl ⟨he, fun hid => hne ((hothers e he).mpr hid)⟩
  · intro e he hid
    refine List.mem_cons_of_mem _ (mem_removeKey.mpr ⟨he, fun hsame => ?_⟩)
    exact hid ((hothers e he).mp hsame)
  · exact fun _ => ⟨nick, hnick, List.mem_cons_self⟩
  · intro _
    rw [hnick]
    rfl
  · exact fun _ => hflag

theorem removed (h : Listed key users clients live data)
    (hc : findKey IrcClient.id c.id live = some c)
    (hfree : c.registered = false → ∀ nick, c.nick = some nick →
      findKey Prod.fst (key nick) clients = none) :
    Listed key (users - 1)
      (match c.nick with
        | some nick => removeKey Prod.fst (key nick) clients
        | none => clients)
      (removeKey IrcClient.id c.id live) (Function.update data c.sock (some none)) := by
  obtain ⟨hmem, -⟩ := findKey_mem hc
  cases hregistered : c.registered with
  | true =>
    obtain ⟨nick, hnick, hown⟩ := h.found c hmem hregistered
    rw [hnick]
    refine h.remove hc (h.names.removeKey (key nick)) (fun e => ?_)
    rw [mem_removeKey]
    refine and_congr_right (fun he => not_congr ⟨fun hsame => ?_, fun hid => ?_⟩)
    · rw [h.names.eq_of_key he hown hsame]
    · have hentry := (h.of_entry hmem he hid).2
      rw [hnick] at hentry
      exact (Option.some.inj hentry).symm
  | false =>
    have hsame : (match c.nick with
        | some nick => removeKey Prod.fst (key nick) clients
        | none => clients) = clients := by
      cases hnick : c.nick with
      | none => rfl
      | some nick => exact removeKey_of_ne (findKey_none.mp (hfree hregistered nick hnick))
    rw [hsame]
    refine h.remove hc h.names (fun e => ?_)
    exact (and_iff_left_of_imp (h.not_entry hmem hregistered e)).symm

end Listed

end Serveez.Irc
