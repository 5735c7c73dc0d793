import Serveez.Irc.Channels
import Serveez.Lib.Cut

/-!
# The cipher of private messages

`irc_encrypt_text` writes over the text that it encrypts, in a buffer of `MAX_MSG_LEN` bytes, and
`irc_decrypt_text` reads such a buffer. A prefix makes it read the next byte, whatever it is: behind
a prefix at the end of a text it goes on with what is left of an earlier one.

* `ircDecryptText_encrypt`: what one key encrypts another one decrypts to the text under both.
* `ircEncryptText_inj`: different texts are encrypted differently.
-/

namespace Serveez.Irc

open Channels

/-- A string in an array of `n` bytes. -/
structure CString (n : Nat) where
  text : List UInt8
  ends : 0 ∉ text
  fits : text.length < n

/-- The string at the beginning of a block. -/
def cString (block : List UInt8) : List UInt8 := block.takeWhile (· ≠ 0)

/-- A static buffer for a message. -/
structure TextBuffer where
  block : List UInt8
  size : block.length = maxMsgLen

namespace TextBuffer

def text (buffer : TextBuffer) : List UInt8 := cString buffer.block

/-- The text is written to the beginning of the buffer, if it fits. -/
def write (buffer : TextBuffer) (text : List UInt8) : Option TextBuffer :=
  if h : text.length < maxMsgLen then
    some ⟨text ++ 0 :: buffer.block.drop (text.length + 1), by
      rw [List.length_append, List.length_cons, List.length_drop, buffer.size]
      omega⟩
  else none

def zero : TextBuffer := ⟨List.replicate maxMsgLen 0, List.length_replicate⟩

end TextBuffer

/-! ## Keys, encryption and decryption -/

/-- `IRC_CRYPT_BYTE` -/
def ircCryptByte : UInt8 := 42

/-- `IRC_CRYPT_PREFIX` -/
def ircCryptPrefix : UInt8 := 35

/-- The loop of `irc_gen_key`. -/
def genKeyLoop (key : UInt8) (n : UInt8) : List UInt8 → UInt8
  | [] => key
  | p :: pass => genKeyLoop (key + ((p + n) ^^^ ircCryptByte)) (n + 1) pass

/-- `irc_gen_key` -/
def ircGenKey (pass : List UInt8) : UInt8 := genKeyLoop 0 0 pass

/-- What `irc_encrypt_text` makes of a byte. -/
def encryptByte (key c : UInt8) : List UInt8 :=
  let code := c ^^^ key
  if code < 0x20 ∨ code = ircCryptPrefix then [ircCryptPrefix, code + ircCryptPrefix] else [code]

/-- `irc_encrypt_text` -/
def ircEncryptText (key : UInt8) (text : List UInt8) : List UInt8 := text.flatMap (encryptByte key)

/-- `irc_decrypt_text`, for the memory at `crypt`. -/
def ircDecryptText (key : UInt8) : List UInt8 → Option (List UInt8)
  | [] => none
  | c :: crypt =>
    if c = 0 then some []
    else if c = ircCryptPrefix then
      match crypt with
      | [] => none
      | c :: crypt => (ircDecryptText key crypt).map (((c - ircCryptPrefix) ^^^ key) :: ·)
    else (ircDecryptText key crypt).map ((c ^^^ key) :: ·)

/-! ## Texts in buffers -/

theorem cString_append {text : List UInt8} (h : 0 ∉ text) (rest : List UInt8) :
    cString (text ++ 0 :: rest) = text :=
  Lib.takeWhile_ne_cut h rest

theorem cString_eq_self {text : List UInt8} (h : 0 ∉ text) : cString text = text :=
  Lib.takeWhile_ne_self h

namespace TextBuffer

variable {buffer buffer' : TextBuffer} {text : List UInt8}

theorem write_eq_some :
    buffer.write text = some buffer' ↔ text.length < maxMsgLen ∧
      buffer'.block = text ++ 0 :: buffer.block.drop (text.length + 1) := by
  obtain ⟨block, size⟩ := buffer'
  unfold write
  split
  · next hlt => simp [hlt, eq_comm]
  · next hlt => simp [hlt]

theorem write_isSome (buffer : TextBuffer) :
    (buffer.write text).isSome = true ↔ text.length < maxMsgLen := by
  unfold write
  split
  · next hlt => simp [hlt]
  · next hlt => simp [hlt]

theorem text_write (h : 0 ∉ text) (hwrite : buffer.write text = some buffer') :
    buffer'.text = text := by
  unfold TextBuffer.text
  rw [(write_eq_some.mp hwrite).2, cString_append h]

end TextBuffer

/-! ## One key after the other -/

theorem encryptByte_cases (key c : UInt8) :
    encryptByte key c = [ircCryptPrefix, (c ^^^ key) + ircCryptPrefix] ∧
        (c ^^^ key) + ircCryptPrefix ≠ 0 ∨
      encryptByte key c = [c ^^^ key] ∧ c ^^^ key ≠ ircCryptPrefix ∧ 0x20 ≤ c ^^^ key := by
  unfold encryptByte
  by_cases hcode : c ^^^ key < 0x20 ∨ c ^^^ key = ircCryptPrefix
  · refine Or.inl ⟨if_pos hcode, fun hzero => ?_⟩
    have hsum := congrArg UInt8.toNat hzero
    rw [UInt8.toNat_add] at hsum
    rcases hcode with hlow | hmark
    · have hlow : (c ^^^ key).toNat < 32 := UInt8.lt_iff_toNat_lt.mp hlow
      have hmark : ircCryptPrefix.toNat = 35 := rfl
      have hnone : (0 : UInt8).toNat = 0 := rfl
      omega
    · rw [hmark] at hsum
      exact absurd hsum (by decide)
  · obtain ⟨hlow, hmark⟩ := not_or.mp hcode
    exact Or.inr ⟨if_neg hcode, hmark, UInt8.not_lt.mp hlow⟩

theorem zero_notMem_encryptByte (key c : UInt8) : 0 ∉ encryptByte key c := by
  rcases encryptByte_cases key c with ⟨hcode, hne⟩ | ⟨hcode, -, hlow⟩
  · rw [hcode, List.mem_cons, List.mem_singleton]
    exact not_or.mpr ⟨by decide, hne.symm⟩
  · rw [hcode, List.mem_singleton]
    exact fun hzero => absurd (hzero ▸ hlow) (by decide)

theorem zero_notMem_encrypt (key : UInt8) (text : List UInt8) : 0 ∉ ircEncryptText key text := by
  intro h
  obtain ⟨c, -, hc⟩ := List.mem_flatMap.mp h
  exact zero_notMem_encryptByte key c hc

theorem ircDecryptText_zero (key : UInt8) (rest : List UInt8) :
    ircDecryptText key (0 :: rest) = some [] := by
  rw [ircDecryptText.eq_def]
  exact if_pos rfl

theorem ircDecryptText_encryptByte (key key' c : UInt8) (rest : List UInt8) :
    ircDecryptText key' (encryptByte key c ++ rest) =
      (ircDecryptText key' rest).map ((c ^^^ key ^^^ key') :: ·) := by
  rcases encryptByte_cases key c with ⟨hcode, -⟩ | ⟨hcode, hmark, hlow⟩
  · rw [hcode, List.cons_append, ircDecryptText.eq_def]
    dsimp only
    rw [if_neg (by decide), if_pos rfl, List.cons_append, List.nil_append]
    dsimp only
    rw [UInt8.add_sub_cancel]
  · rw [hcode, List.cons_append, ircDecryptText.eq_def]
    dsimp only
    rw [if_neg (fun hzero => absurd (hzero ▸ hlow) (by decide)), if_neg hmark]
    rfl

theorem ircDecryptText_encrypt (key key' : UInt8) (text rest : List UInt8) :
    ircDecryptText key' (ircEncryptText key text ++ 0 :: rest) =
      some (text.map (· ^^^ key ^^^ key')) := by
  induction text with
  | nil => exact ircDecryptText_zero key' rest
  | cons c text ih =>
    have hcons : ircEncryptText key (c :: text) = encryptByte key c ++ ircEncryptText key text :=
      rfl
    rw [hcons, List.append_assoc, ircDecryptText_encryptByte, ih]
    rfl

theorem ircEncryptText_inj {key : UInt8} {text text' : List UInt8} :
    ircEncryptText key text = ircEncryptText key text' ↔ text = text' := by
  refine ⟨fun h => ?_, fun h => h ▸ rfl⟩
  have hself (text : List UInt8) : text.map (· ^^^ key ^^^ key) = text := by
    refine (List.map_congr_left (fun c _ => ?_)).trans (List.map_id text)
    rw [UInt8.xor_assoc, UInt8.xor_self, UInt8.xor_zero]
    rfl
  have hdecrypt := ircDecryptText_encrypt key key text []
  rw [h, ircDecryptText_encrypt] at hdecrypt
  have hmap := Option.some.inj hdecrypt
  rw [hself, hself] at hmap
  exact hmap.symm

/-! ## Texts that need no prefix -/

theorem encryptByte_plain {key c : UInt8} (h : ircCryptPrefix ∉ encryptByte key c) :
    encryptByte key c = [c ^^^ key] := by
  rcases encryptByte_cases key c with ⟨hcode, -⟩ | ⟨hcode, -⟩
  · rw [hcode] at h
    exact absurd List.mem_cons_self h
  · exact hcode

theorem ircEncryptText_plain {key : UInt8} {text : List UInt8}
    (h : ircCryptPrefix ∉ ircEncryptText key text) :
    ircEncryptText key text = text.map (· ^^^ key) := by
  induction text with
  | nil => rfl
  | cons c text ih =>
    have hcons : ircEncryptText key (c :: text) = encryptByte key c ++ ircEncryptText key text :=
      rfl
    rw [hcons, List.mem_append, not_or] at h
    rw [hcons, encryptByte_plain h.1, ih h.2]
    rfl

theorem length_ircEncryptText (key : UInt8) (text : List UInt8) :
    text.length ≤ (ircEncryptText key text).length ∧
      ((ircEncryptText key text).length = text.length →
        ircCryptPrefix ∉ ircEncryptText key text) := by
  induction text with
  | nil => exact ⟨Nat.le_refl 0, fun _ => List.not_mem_nil⟩
  | cons c text ih =>
    have hcons : ircEncryptText key (c :: text) = encryptByte key c ++ ircEncryptText key text :=
      rfl
    rw [hcons, List.length_append, List.length_cons]
    rcases encryptByte_cases key c with ⟨hcode, -⟩ | ⟨hcode, hmark, -⟩ <;> rw [hcode]
    · refine ⟨by simp only [List.length_cons, List.length_nil]; omega, fun hlen => ?_⟩
      simp only [List.length_cons, List.length_nil] at hlen
      omega
    · refine ⟨by simp only [List.length_cons, List.length_nil]; omega, fun hlen => ?_⟩
      simp only [List.length_cons, List.length_nil] at hlen
      rw [List.mem_append, List.mem_singleton]
      exact not_or.mpr ⟨fun h => hmark h.symm, ih.2 (by omega)⟩

/-- What is decrypted is as it was sent just when it has no prefix and the second key is zero. -/
theorem cString_eq_encrypt {key key' : UInt8} {text : List UInt8} (hne : text ≠ []) :
    cString (text.map (· ^^^ key ^^^ key')) = ircEncryptText key text ↔
      key' = 0 ∧ ircCryptPrefix ∉ ircEncryptText key text := by
  obtain ⟨hlonger, hplain⟩ := length_ircEncryptText key text
  constructor
  · intro h
    have hcut : cString (text.map (· ^^^ key ^^^ key')) <+: text.map (· ^^^ key ^^^ key') :=
      List.takeWhile_prefix _
    have hshorter := hcut.length_le
    rw [List.length_map] at hshorter
    have hlen := congrArg List.length h
    have hnone := hplain (by omega)
    refine ⟨?_, hnone⟩
    -- nothing is cut off, and the first byte is the same under both keys
    have hwhole : cString (text.map (· ^^^ key ^^^ key')) = text.map (· ^^^ key ^^^ key') := by
      refine hcut.eq_of_length ?_
      rw [List.length_map]
      omega
    rw [hwhole, ircEncryptText_plain hnone] at h
    obtain ⟨c, rest, rfl⟩ := List.exists_cons_of_ne_nil hne
    obtain ⟨hhead, -⟩ := List.cons_eq_cons.mp h
    exact (UInt8.xor_right_inj (c ^^^ key)).mp (hhead.trans UInt8.xor_zero.symm)
  · rintro ⟨rfl, hnone⟩
    have hzero : text.map (· ^^^ key ^^^ 0) = text.map (· ^^^ key) :=
      List.map_congr_left (fun c _ => UInt8.xor_zero)
    rw [hzero, ← ircEncryptText_plain hnone]
    exact cString_eq_self (zero_notMem_encrypt key text)

end Serveez.Irc
