import Serveez.Irc.Crypt

/-!
# Texts that are decrypted

`irc_decrypt_text` takes any text, also one that no peer has encrypted. What `irc_encrypt_text`
makes is read up to its terminator, since each prefix in it has a byte behind it. A prefix at the
end of a text has none: the byte behind it is the terminator, and the reading goes on.

* `decryptText_isSome`: the reading ends at the terminator if the prefixes come in pairs.
* `decrypts_iff`: which texts are read up to their terminator.
-/

namespace Serveez.Irc

open Channels

/-- How many prefixes a text ends with. -/
def endPrefixes (text : List UInt8) : Nat :=
  (text.reverse.takeWhile (· = ircCryptPrefix)).length

/-- A text that is encrypted in a buffer comes back, and without control characters; and a text that
is decrypted is read up to its terminator only, and what is written fits the static buffer. -/
structure Decrypts (key : UInt8) (text : CString maxMsgLen) : Prop where
  back : ∀ buffer buffer' : TextBuffer, buffer.write (ircEncryptText key text.text) = some buffer' →
    (ircDecryptText key buffer'.block).map cString = some text.text
  visible : ∀ c ∈ ircEncryptText key text.text, 0x20 ≤ c
  inside : ∃ written, ircDecryptText key (text.text ++ [0]) = some written ∧
    written.length ≤ maxMsgLen

/-! ## What is encrypted -/

theorem visible_encryptByte (key c : UInt8) : ∀ d ∈ encryptByte key c, 0x20 ≤ d := by
  unfold encryptByte
  dsimp only
  split_ifs with hcode
  · intro d hd
    rcases List.mem_cons.mp hd with rfl | hd
    · decide
    obtain rfl := List.mem_singleton.mp hd
    have hmark : ircCryptPrefix.toNat = 35 := rfl
    rw [UInt8.le_iff_toNat_le, UInt8.toNat_add, hmark]
    rcases hcode with hlow | hcode
    · have hlow : (c ^^^ key).toNat < 32 := UInt8.lt_iff_toNat_lt.mp hlow
      show 32 ≤ _
      omega
    · rw [hcode]
      decide
  · obtain ⟨hlow, -⟩ := not_or.mp hcode
    exact List.forall_mem_singleton.mpr (UInt8.not_lt.mp hlow)

theorem visible_encryptText (key : UInt8) (text : List UInt8) :
    ∀ c ∈ ircEncryptText key text, 0x20 ≤ c := by
  intro c hc
  obtain ⟨d, -, hd⟩ := List.mem_flatMap.mp hc
  exact visible_encryptByte key d c hd

theorem decrypt_written {key : UInt8} {buffer buffer' : TextBuffer} {text : List UInt8}
    (h : 0 ∉ text) (hwrite : buffer.write (ircEncryptText key text) = some buffer') :
    (ircDecryptText key buffer'.block).map cString = some text := by
  have hself : text.map (· ^^^ key ^^^ key) = text := by
    refine (List.map_congr_left (fun c _ => ?_)).trans (List.map_id text)
    rw [UInt8.xor_assoc, UInt8.xor_self, UInt8.xor_zero]
    rfl
  rw [(TextBuffer.write_eq_some.mp hwrite).2, ircDecryptText_encrypt, hself, Option.map_some,
    cString_eq_self h]

/-! ## What is decrypted -/

theorem endPrefixes_all (c : UInt8) {text : List UInt8} (hall : ∀ d ∈ text, d = ircCryptPrefix) :
    endPrefixes (c :: text) = text.length + (if c = ircCryptPrefix then 1 else 0) := by
  unfold endPrefixes
  rw [List.reverse_cons, List.takeWhile_append_of_pos (by simpa using hall), List.length_append,
    List.length_reverse]
  split_ifs with hc
  · rw [List.takeWhile_cons_of_pos (by simpa using hc)]
    rfl
  · rw [List.takeWhile_cons_of_neg (by simpa using hc)]
    rfl

theorem endPrefixes_other (c : UInt8) {text : List UInt8}
    (hall : ¬ ∀ d ∈ text, d = ircCryptPrefix) : endPrefixes (c :: text) = endPrefixes text := by
  unfold endPrefixes
  rw [List.reverse_cons, List.takeWhile_append, if_neg]
  intro hlength
  refine hall (fun d hd => ?_)
  have hwhole := (List.takeWhile_prefix _).eq_of_length hlength
  have hmem : d ∈ text.reverse.takeWhile (· = ircCryptPrefix) := by
    rw [hwhole]
    exact List.mem_reverse.mpr hd
  simpa using List.mem_takeWhile_imp hmem

/-- A pair of a prefix and the byte behind it leaves the rest as it is. -/
theorem endPrefixes_pair (c : UInt8) (text : List UInt8) :
    endPrefixes (ircCryptPrefix :: c :: text) % 2 = endPrefixes text % 2 := by
  by_cases hall : ∀ d ∈ text, d = ircCryptPrefix
  · have htext : endPrefixes text = text.length := by
      unfold endPrefixes
      rw [List.takeWhile_eq_self_iff.mpr (by simpa using hall), List.length_reverse]
    rw [htext]
    by_cases hc : c = ircCryptPrefix
    · rw [endPrefixes_all _ (List.forall_mem_cons.mpr ⟨hc, hall⟩), if_pos rfl, List.length_cons]
      omega
    · rw [endPrefixes_other _ (fun h => hc (List.forall_mem_cons.mp h).1), endPrefixes_all _ hall,
        if_neg hc]
      rfl
  · rw [endPrefixes_other _ (fun h => hall (List.forall_mem_cons.mp h).2),
      endPrefixes_other _ hall]

theorem endPrefixes_plain {c : UInt8} (hc : c ≠ ircCryptPrefix) (text : List UInt8) :
    endPrefixes (c :: text) = endPrefixes text := by
  by_cases hall : ∀ d ∈ text, d = ircCryptPrefix
  · rw [endPrefixes_all c hall, if_neg hc]
    unfold endPrefixes
    rw [List.takeWhile_eq_self_iff.mpr (by simpa using hall), List.length_reverse]
    rfl
  · exact endPrefixes_other c hall

/-- Each round takes a byte, or a prefix and the byte behind it. -/
theorem decryptText_isSome (key : UInt8) : ∀ text : List UInt8, 0 ∉ text →
    ((ircDecryptText key (text ++ [0])).isSome = true ↔ endPrefixes text % 2 = 0)
  | [], _ => iff_of_true rfl rfl
  | [c], h => by
    have hzero : c ≠ 0 := fun hc => h (hc ▸ List.mem_cons_self)
    by_cases hc : c = ircCryptPrefix
    · rw [hc]
      have hnone : ircDecryptText key ([ircCryptPrefix] ++ [0]) = none := rfl
      rw [hnone]
      exact iff_of_false Bool.false_ne_true (by decide)
    · rw [endPrefixes_plain hc, List.cons_append, ircDecryptText.eq_def]
      dsimp only
      rw [if_neg hzero, if_neg hc]
      exact iff_of_true rfl rfl
  | c :: d :: text, h => by
    have hzero : c ≠ 0 := fun hc => h (hc ▸ List.mem_cons_self)
    have hrest : 0 ∉ d :: text := fun hmem => h (List.mem_cons_of_mem c hmem)
    by_cases hc : c = ircCryptPrefix
    · have htext : 0 ∉ text := fun hmem => hrest (List.mem_cons_of_mem d hmem)
      rw [hc, endPrefixes_pair, ← decryptText_isSome key text htext, List.cons_append,
        ircDecryptText.eq_def]
      dsimp only
      rw [if_neg (by decide), if_pos rfl, List.cons_append, Option.isSome_map]
    · rw [endPrefixes_plain hc, ← decryptText_isSome key (d :: text) hrest, List.cons_append,
        ircDecryptText.eq_def]
      dsimp only
      rw [if_neg hzero, if_neg hc, Option.isSome_map]

theorem length_decryptText {key : UInt8} : ∀ {crypt written : List UInt8},
    ircDecryptText key crypt = some written → written.length < crypt.length
  | [], _, h => absurd h.symm (Option.some_ne_none _)
  | c :: crypt, written, h => by
    rw [ircDecryptText.eq_def] at h
    dsimp only at h
    split_ifs at h with hzero hmark
    · rw [← Option.some.inj h, List.length_cons]
      exact Nat.succ_pos _
    · split at h
      · exact absurd h.symm (Option.some_ne_none _)
      · next d crypt =>
        obtain ⟨rest, hrest, rfl⟩ := Option.map_eq_some_iff.mp h
        have hlt := length_decryptText hrest
        simp only [List.length_cons]
        omega
    · obtain ⟨rest, hrest, rfl⟩ := Option.map_eq_some_iff.mp h
      exact Nat.succ_lt_succ (length_decryptText hrest)

/-- A text is encrypted and decrypted as it should just when it ends in an even number of
prefixes. -/
theorem decrypts_iff (key : UInt8) (text : CString maxMsgLen) :
    Decrypts key text ↔ endPrefixes text.text % 2 = 0 := by
  rw [← decryptText_isSome key text.text text.ends]
  constructor
  · intro h
    obtain ⟨written, hwritten, -⟩ := h.inside
    rw [hwritten]
    rfl
  · intro h
    obtain ⟨written, hwritten⟩ := Option.isSome_iff_exists.mp h
    refine ⟨fun _ _ => decrypt_written text.ends, visible_encryptText key text.text, written,
      hwritten, ?_⟩
    have hlt := length_decryptText hwritten
    rw [List.length_append, List.length_singleton] at hlt
    exact Nat.le_trans (Nat.le_of_lt_succ hlt) (Nat.le_of_lt text.fits)

/-- The text of one prefix. -/
theorem lonePrefix_not_decrypts : ¬ Decrypts 0 ⟨[ircCryptPrefix], by decide, by decide⟩ := by
  intro h
  obtain ⟨written, hwritten, -⟩ := h.inside
  have hnone : ircDecryptText 0 ([ircCryptPrefix] ++ [0]) = none := by decide
  exact absurd (hnone.symm.trans hwritten) (Option.some_ne_none _).symm

end Serveez.Irc
