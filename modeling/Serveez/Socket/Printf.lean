import Serveez.Lib.Block
import Serveez.Socket.Send

/-!
# Formatted writes

`svz_sock_printf` and `irc_printf` print into a static buffer and pass what they have printed to
`svz_sock_write`. The length is that of the whole text; a longer one is cut to the size of the
buffer, of which the last byte is the terminator.

* `printf_passed`: what is passed for a text of any length.
* `printsText_iff`: it is the text cut to what fits just when the text is shorter than the buffer.
-/

namespace Serveez.Socket

open Lib

/-- `VSNPRINTF_BUF_SIZE` -/
def vsnprintfBufSize : Nat := 2048

abbrev PrintBuffer : Type := Block UInt8 vsnprintfBufSize

/-- What `vsnprintf` returns, as an `unsigned`: a length that is no `int` is an error. -/
def vsnprintfLen (text : List UInt8) : Nat :=
  if text.length < 2 ^ 31 then text.length else 2 ^ 32 - 1

/-- The length that is passed to `svz_sock_write`. -/
def clampedLen (text : List UInt8) : Nat :=
  let len := vsnprintfLen text
  if vsnprintfBufSize < len then vsnprintfBufSize else len

theorem clampedLen_eq (text : List UInt8) :
    clampedLen text = min text.length vsnprintfBufSize := by
  unfold clampedLen vsnprintfLen vsnprintfBufSize
  dsimp only
  split_ifs <;> omega

/-- The bytes that are passed. -/
def passedBytes (buffer : PrintBuffer) (text : List UInt8) : List UInt8 :=
  buffer.cells.take (clampedLen text)

theorem passedBytes_length (buffer : PrintBuffer) (text : List UInt8) :
    (passedBytes buffer text).length < 2 ^ 31 := by
  have hsize := buffer.size
  unfold passedBytes
  unfold vsnprintfBufSize at hsize
  rw [List.length_take]
  omega

/-- A call has returned: the buffer, what was passed, and what `svz_sock_write` has come to. -/
structure Printed where
  buffer : PrintBuffer
  passed : Option Buf
  outcome : Except Fault Outcome

/-- The two functions; `finish` is what they do with the socket afterwards. -/
def printf (finish : Outcome → TcpSock) (sock : TcpSock) (buffer : PrintBuffer)
    (text : List UInt8) (results : List SendResult) : Printed :=
  if sock.killed then ⟨buffer, none, .ok ⟨sock, .done, []⟩⟩
  else
    let buffer := buffer.snprintf 0 text
    let buf : Buf := ⟨passedBytes buffer text, passedBytes_length buffer text⟩
    ⟨buffer, some buf, (svzSockWrite sock buf results).map fun o => { o with sock := finish o }⟩

def svzSockPrintf (sock : TcpSock) (buffer : PrintBuffer) (text : List UInt8)
    (results : List SendResult) : Printed :=
  printf Outcome.sock sock buffer text results

/-- `irc_printf`, which schedules the socket for its shutdown when the write fails. -/
def ircPrintf (sock : TcpSock) (buffer : PrintBuffer) (text : List UInt8)
    (results : List SendResult) : Printed :=
  printf (fun o => { o.sock with killed := o.sock.killed || o.ending.ret ≠ 0 }) sock buffer text
    results

/-- What is passed for a socket that is not on its way down is the text, cut to what fits. -/
def PrintsText (sock : TcpSock) (text : List UInt8) (printed : Printed) : Prop :=
  sock.killed = false → printed.passed.map Buf.bytes =
    some (text.take (min text.length (vsnprintfBufSize - 1)))

/-- A text that is too long is cut, and its terminator passed with it. -/
theorem passedBytes_snprintf (buffer : PrintBuffer) (text : List UInt8) :
    passedBytes (buffer.snprintf 0 text) text =
      if text.length < vsnprintfBufSize then text
      else text.take (vsnprintfBufSize - 1) ++ [0] := by
  obtain ⟨h, heq⟩ := Block.snprintf_eq 0 (by decide : 0 < vsnprintfBufSize) buffer text
  unfold passedBytes
  rw [heq, clampedLen_eq]
  by_cases hfits : text.length < vsnprintfBufSize
  · have hall : text.take (vsnprintfBufSize - 1) = text := List.take_of_length_le (by omega)
    rw [if_pos hfits, Nat.min_eq_left hfits.le]
    unfold Block.write
    dsimp only
    rw [hall, List.take_left]
  · have hcut : (text.take (vsnprintfBufSize - 1)).length + 1 = vsnprintfBufSize := by
      rw [List.length_take]
      unfold vsnprintfBufSize at *
      omega
    have htake := Block.take_write 0 buffer h
    rw [hcut] at htake
    rw [if_neg hfits, Nat.min_eq_right (Nat.not_lt.mp hfits), htake]

/-- What is passed on for a text that is printed into the buffer. -/
def sockPrintf (buffer : PrintBuffer) (text : List UInt8) : List UInt8 :=
  passedBytes (buffer.snprintf 0 text) text

theorem sockPrintf_eq (buffer : PrintBuffer) {text : List UInt8}
    (htext : text.length < vsnprintfBufSize) : sockPrintf buffer text = text := by
  unfold sockPrintf
  rw [passedBytes_snprintf, if_pos htext]

theorem printf_passed (finish : Outcome → TcpSock) {sock : TcpSock} (hkilled : sock.killed = false)
    (buffer : PrintBuffer) (text : List UInt8) (results : List SendResult) :
    (printf finish sock buffer text results).passed.map Buf.bytes =
      some (passedBytes (buffer.snprintf 0 text) text) := by
  unfold printf
  rw [if_neg (by rw [hkilled]; exact Bool.false_ne_true)]
  rfl

/-- The text is passed as it should be unless it is as long as the buffer. -/
theorem printf_iff (finish : Outcome → TcpSock) (sock : TcpSock) (buffer : PrintBuffer)
    (text : List UInt8) (results : List SendResult) :
    PrintsText sock text (printf finish sock buffer text results) ↔
      (sock.killed = true ∨ text.length < vsnprintfBufSize) := by
  unfold PrintsText
  cases hkilled : sock.killed with
  | true => exact iff_of_true (fun h => absurd h.symm Bool.false_ne_true) (Or.inl rfl)
  | false =>
    rw [printf_passed finish hkilled, passedBytes_snprintf]
    by_cases hfits : text.length < vsnprintfBufSize
    · rw [if_pos hfits]
      refine iff_of_true (fun _ => ?_) (Or.inr hfits)
      rw [List.take_of_length_le]
      unfold vsnprintfBufSize at *
      omega
    · rw [if_neg hfits]
      refine iff_of_false (fun h => ?_) (fun h => ?_)
      · have hlength := congrArg (List.length ·) (Option.some.inj (h rfl))
        simp only [List.length_append, List.length_take, List.length_singleton] at hlength
        unfold vsnprintfBufSize at *
        omega
      · exact hfits (h.resolve_left Bool.false_ne_true)

/-- Each function passes the text as it should just when it leaves room for the terminator. -/
theorem printsText_iff (sock : TcpSock) (buffer ircBuffer : PrintBuffer) (text : List UInt8)
    (results : List SendResult) :
    (PrintsText sock text (svzSockPrintf sock buffer text results) ↔
      (sock.killed = true ∨ text.length < vsnprintfBufSize)) ∧
    (PrintsText sock text (ircPrintf sock ircBuffer text results) ↔
      (sock.killed = true ∨ text.length < vsnprintfBufSize)) :=
  ⟨printf_iff _ sock buffer text results, printf_iff _ sock ircBuffer text results⟩

/-- A text as long as the buffer is passed with a terminator. -/
theorem fullBuffer_not_printsText :
    ¬ ∀ (sock : TcpSock) (buffer : PrintBuffer) (text : List UInt8) (results : List SendResult),
      PrintsText sock text (svzSockPrintf sock buffer text results) := by
  intro hall
  let sock : TcpSock := ⟨false, true, false, false, [], 4096, [], by decide⟩
  let buffer : PrintBuffer := ⟨List.replicate 2048 0, List.length_replicate⟩
  have hprints := (printf_iff Outcome.sock sock buffer (List.replicate 2048 65) []).mp
    (hall sock buffer (List.replicate 2048 65) [])
  rw [List.length_replicate] at hprints
  exact absurd hprints (by decide)

end Serveez.Socket
