import Mathlib.Tactic.Common
import SoftPhone.Machine.Run
import SoftPhone.Util.Arrays
import SoftPhone.Util.Fifo

/-!
# The pipe

`Pipe` keeps its bytes in a circular buffer, with the index of the first byte (`pipe_top`) and the
number of bytes (`pipe_size`).  The sums of the two are sums of `int`s, and the remainder is that of
Java, which has the sign of the sum.

A method gives the state that it leaves, and `none` when it has thrown an exception.  `pipe data t u`
is the state with natural numbers for the two fields, which all states are; the equations of the
methods are about it.

* `pipe_refines_fifo`: a pipe of at most `2^30` bytes is a bounded queue.
-/

namespace SoftPhone
namespace Pipes

open Arrays Words Circular Machine

/-! ## The methods -/

/-- The fields of a `Pipe`. -/
structure Pipe where
  pipeBuffer : List UInt8
  pipeTop : ℤ
  pipeSize : ℤ
  deriving DecidableEq

namespace Pipe

variable (p : Pipe)

/-- `new Pipe(size)`. -/
def new (size : ℕ) : Pipe := ⟨List.replicate size 0, 0, 0⟩

/-- The number of bytes that can be read. -/
def available : ℤ := p.pipeSize

/-- The number of bytes that can be written. -/
def freespace : ℤ := p.pipeBuffer.length - p.pipeSize

/-- `(pipe_top+pipe_size)%pipe_buffer.length`. -/
def endIndex : ℤ := (int32 (p.pipeTop + p.pipeSize)).tmod p.pipeBuffer.length

/-- The bytes in the pipe. -/
def contents : List UInt8 := window p.pipeBuffer p.pipeTop.toNat p.pipeSize.toNat

/-- An index that has reached the end of the buffer starts again. -/
def wrapped (data : List UInt8) (i : ℤ) : ℤ := if i = data.length then 0 else i

/-- `write(b)`.  The number of bytes is incremented before the byte is stored. -/
def write (b : UInt8) : Pipe × Option Unit :=
  if p.pipeSize = p.pipeBuffer.length then (p, none)
  else
    match store p.pipeBuffer p.endIndex b with
    | none => ({ p with pipeSize := p.pipeSize + 1 }, none)
    | some data => ({ p with pipeBuffer := data, pipeSize := p.pipeSize + 1 }, some ())

/-- The loop of `write(buf,off,len)`: the buffer that it leaves. -/
def writeLoop (buf : List UInt8) : ℕ → List UInt8 → ℤ → ℤ → List UInt8 × Option Unit
  | 0, data, _, _ => (data, some ())
  | k + 1, data, pos, off =>
    match load buf off with
    | none => (data, none)
    | some b =>
      match store data pos b with
      | none => (data, none)
      | some data => writeLoop buf k data (wrapped data (pos + 1)) (off + 1)

/-- `write(buf,off,len)`.  For an empty buffer the remainder throws. -/
def writeBytes (buf : List UInt8) (off len : ℤ) : Pipe × Option Unit :=
  if len < 0 then (p, none)
  else if len > p.freespace then (p, none)
  else if p.pipeBuffer.length = 0 then (p, none)
  else
    let written := writeLoop buf len.toNat p.pipeBuffer p.endIndex off
    match written.2 with
    | none => ({ p with pipeBuffer := written.1 }, none)
    | some () => ({ p with pipeBuffer := written.1, pipeSize := p.pipeSize + len }, some ())

/-- `read()`. -/
def read : Pipe × Option UInt8 :=
  if p.pipeSize = 0 then (p, none)
  else
    match load p.pipeBuffer p.pipeTop with
    | none => (p, none)
    | some b =>
      ({ p with pipeTop := wrapped p.pipeBuffer (p.pipeTop + 1), pipeSize := p.pipeSize - 1 },
        some b)

/-- The loop of `read(buf,off,len)`: the first index and the caller's array that it leaves.  The
index is incremented before the byte is stored. -/
def readLoop (data : List UInt8) :
    ℕ → ℤ → List UInt8 → ℤ → (ℤ × List UInt8) × Option Unit
  | 0, top, buf, _ => ((top, buf), some ())
  | k + 1, top, buf, off =>
    match load data top with
    | none => ((top + 1, buf), none)
    | some b =>
      match store buf off b with
      | none => ((top + 1, buf), none)
      | some buf => readLoop data k (wrapped data (top + 1)) buf (off + 1)

/-- `read(buf,off,len)`: the pipe and the caller's array, and the number of bytes. -/
def readBytes (buf : List UInt8) (off len : ℤ) : (Pipe × List UInt8) × Option ℤ :=
  if len < 0 then ((p, buf), none)
  else if len > p.pipeSize then ((p, buf), none)
  else
    let done := readLoop p.pipeBuffer len.toNat p.pipeTop buf off
    match done.2 with
    | none => (({ p with pipeTop := done.1.1 }, done.1.2), none)
    | some () =>
      (({ p with pipeTop := done.1.1, pipeSize := p.pipeSize - len }, done.1.2), some len)

/-- `skip(len)`. -/
def skip (len : ℤ) : Pipe × Option ℤ :=
  if len < 0 then (p, none)
  else if len > p.pipeSize then (p, none)
  else if p.pipeBuffer.length = 0 then ({ p with pipeSize := p.pipeSize - len }, none)
  else
    ({ p with
        pipeTop := (int32 (p.pipeTop + len)).tmod p.pipeBuffer.length
        pipeSize := p.pipeSize - len }, some len)

end Pipe

/-! ## The equations of the methods -/

open Pipe

section

variable {data buf : List UInt8} {t u n off : ℕ}

/-- The pipe with its first byte at the index `t` and with `u` bytes. -/
def pipe (data : List UInt8) (t u : ℕ) : Pipe := ⟨data, t, u⟩

@[simp] theorem pipe_pipeBuffer : (pipe data t u).pipeBuffer = data := rfl

@[simp] theorem pipe_pipeTop : (pipe data t u).pipeTop = t := rfl

@[simp] theorem pipe_pipeSize : (pipe data t u).pipeSize = u := rfl

@[simp] theorem contents_pipe : (pipe data t u).contents = window data t u := rfl

theorem freespace_pipe (h : u ≤ data.length) :
    (pipe data t u).freespace = (data.length - u : ℕ) := by
  rw [freespace, pipe_pipeBuffer, pipe_pipeSize]
  omega

theorem endIndex_pipe (h : t + u < 2 ^ 31) :
    (pipe data t u).endIndex = ((t + u) % data.length : ℕ) := by
  rw [endIndex, pipe_pipeBuffer, pipe_pipeTop, pipe_pipeSize,
    int32_of_lt (by omega) (by omega), Int.tmod_eq_emod_of_nonneg (by omega)]
  rfl

theorem wrapped_mod (i : ℕ) (h : 0 < data.length) :
    wrapped data ((i % data.length : ℕ) + 1) = ((i + 1) % data.length : ℕ) := by
  have hlt := Nat.mod_lt i h
  rw [wrapped, ← Nat.mod_add_mod i]
  split
  · rename_i heq
    have heq : i % data.length + 1 = data.length := by omega
    rw [heq, Nat.mod_self]
    rfl
  · rename_i hne
    have hlt' : i % data.length + 1 < data.length := by omega
    rw [Nat.mod_eq_of_lt hlt']
    rfl

theorem write_pipe (b : UInt8) (hu : u < data.length) (hsum : t + u < 2 ^ 31) :
    (pipe data t u).write b =
      (pipe (data.set ((t + u) % data.length) b) t (u + 1), some ()) := by
  have hpos := Nat.mod_lt (t + u) (Nat.zero_lt_of_lt hu)
  rw [write, pipe_pipeBuffer, pipe_pipeSize, if_neg (by omega), endIndex_pipe hsum,
    store_natCast hpos]
  rfl

theorem write_full (b : UInt8) :
    (pipe data t data.length).write b = (pipe data t data.length, none) :=
  if_pos rfl

theorem writeLoop_eq {i : ℕ} (h : 0 < data.length) (hbuf : off + n ≤ buf.length) :
    writeLoop buf n data ((i % data.length : ℕ)) off = (put data i (slice buf off n), some ()) := by
  induction n generalizing data i off with
  | zero => rw [writeLoop, slice_zero, put]
  | succ n ih =>
    have hload : off < buf.length := by omega
    have hpos := Nat.mod_lt i h
    have hlen : (data.set (i % data.length) buf[off]).length = data.length := List.length_set
    have ih := @ih (data.set (i % data.length) buf[off]) (off + 1) (i + 1) (by omega) (by omega)
    have hwrap := @wrapped_mod (data.set (i % data.length) buf[off]) i (by omega)
    rw [hlen] at ih hwrap
    rw [writeLoop, load_natCast hload]
    simp only [store_natCast hpos]
    rw [slice_succ hload, put, ← ih, hwrap]
    rfl

theorem writeBytes_pipe (h : 0 < data.length) (hu : u + n ≤ data.length) (hsum : t + u < 2 ^ 31)
    (hbuf : off + n ≤ buf.length) :
    (pipe data t u).writeBytes buf off n =
      (pipe (put data (t + u) (slice buf off n)) t (u + n), some ()) := by
  have hfree := @freespace_pipe data t u (by omega)
  rw [writeBytes, hfree, pipe_pipeBuffer, if_neg (by omega), if_neg (by omega), if_neg (by omega),
    endIndex_pipe hsum, Int.toNat_natCast, writeLoop_eq h hbuf]
  rfl

theorem read_pipe (ht : t < data.length) :
    (pipe data t (u + 1)).read = (pipe data ((t + 1) % data.length) u, some data[t]) := by
  have hwrap := @wrapped_mod data t (by omega)
  rw [Nat.mod_eq_of_lt ht] at hwrap
  rw [Pipe.read, pipe_pipeBuffer, pipe_pipeTop, pipe_pipeSize, if_neg (by omega), load_natCast ht]
  simp only [hwrap]
  rw [Nat.cast_succ, Int.add_sub_cancel]
  rfl

theorem read_empty : (pipe data t 0).read = (pipe data t 0, none) := if_pos rfl

theorem readLoop_eq (h : 0 < data.length) (hn : n ≤ data.length) (hbuf : off + n ≤ buf.length) :
    readLoop data n ((t % data.length : ℕ)) buf off =
      (((((t + n) % data.length : ℕ) : ℤ), splice buf off (window data t n)), some ()) := by
  induction n generalizing t buf off with
  | zero => rw [readLoop, window_zero, splice_nil, Nat.add_zero]
  | succ n ih =>
    have hpos := Nat.mod_lt t h
    have hoff : off < buf.length := by omega
    have hwin : window data t (n + 1) = data[t % data.length] :: window data (t + 1) n := by
      rw [← window_mod, window_succ (by omega) hpos, ← window_mod, Nat.mod_add_mod, window_mod]
    have ih := @ih (buf.set off data[t % data.length]) (t + 1) (off + 1) (by omega)
      (by rw [List.length_set]; omega)
    rw [readLoop, load_natCast hpos]
    simp only [store_natCast hoff, wrapped_mod t h]
    have hsplice := splice_splice (l := [data[t % data.length]]) (m := window data (t + 1) n) hoff.le
    rw [splice_singleton hoff, List.length_singleton, List.singleton_append, ← hwin] at hsplice
    rw [hsplice, Nat.add_assoc, Nat.add_comm 1] at ih
    exact ih

theorem readBytes_pipe (ht : t < data.length) (hu : u ≤ data.length) (hn : n ≤ u)
    (hbuf : off + n ≤ buf.length) :
    (pipe data t u).readBytes buf off n =
      ((pipe data ((t + n) % data.length) (u - n), splice buf off (window data t n)),
        some (n : ℤ)) := by
  have hloop := @readLoop_eq data buf t n off (by omega) (hn.trans hu) hbuf
  rw [Nat.mod_eq_of_lt ht] at hloop
  rw [readBytes, pipe_pipeBuffer, pipe_pipeTop, pipe_pipeSize, if_neg (by omega),
    if_neg (by omega), Int.toNat_natCast, hloop, ← Int.ofNat_sub hn]
  rfl

theorem skip_pipe (ht : t < data.length) (hn : n ≤ u) (hsum : t + n < 2 ^ 31) :
    (pipe data t u).skip n = (pipe data ((t + n) % data.length) (u - n), some (n : ℤ)) := by
  rw [skip, pipe_pipeBuffer, pipe_pipeTop, pipe_pipeSize, if_neg (by omega), if_neg (by omega),
    if_neg (by omega), int32_of_lt (by omega) (by omega),
    Int.tmod_eq_emod_of_nonneg (by omega), ← Int.ofNat_sub hn]
  rfl

theorem window_take (hn : n ≤ u) :
    (window data t u).take n = window data t n := by
  rw [window, List.take_take, Nat.min_eq_left hn, window]

end

/-! ## The pipe as a queue -/

/-- A call of one of the methods. -/
inductive Call
  | write (b : UInt8)
  | writeBytes (buf : List UInt8) (off len : ℤ)
  | read
  | readBytes (buf : List UInt8) (off len : ℤ)
  | skip (len : ℤ)
  deriving DecidableEq

/-- The caller's array has room for the bytes. -/
def Call.Fits : Call → Prop
  | .writeBytes buf off len | .readBytes buf off len =>
    0 ≤ len → 0 ≤ off ∧ off + len ≤ buf.length
  | _ => True

/-- What a call gives: an exception, a byte, or the caller's array and a number of bytes. -/
inductive Answer
  | thrown
  | done
  | byte (b : UInt8)
  | bytes (buf : List UInt8) (len : ℤ)
  | skipped (len : ℤ)
  deriving DecidableEq

/-- A call of a pipe. -/
def Pipe.call (p : Pipe) : Call → Pipe × Answer
  | .write b => ((p.write b).1, (p.write b).2.elim .thrown fun _ => .done)
  | .writeBytes buf off len =>
    ((p.writeBytes buf off len).1, (p.writeBytes buf off len).2.elim .thrown fun _ => .done)
  | .read => (p.read.1, p.read.2.elim .thrown .byte)
  | .readBytes buf off len =>
    ((p.readBytes buf off len).1.1,
      (p.readBytes buf off len).2.elim .thrown (.bytes (p.readBytes buf off len).1.2))
  | .skip len => ((p.skip len).1, (p.skip len).2.elim .thrown .skipped)

/-- The same call of a queue. -/
def callFifo {cap : ℕ} (q : Fifo UInt8 cap) : Call → Fifo UInt8 cap × Answer
  | .write b => (q.put [b]).elim (q, .thrown) fun q => (q, .done)
  | .writeBytes buf off len =>
    if len < 0 then (q, .thrown)
    else (q.put (slice buf off.toNat len.toNat)).elim (q, .thrown) fun q => (q, .done)
  | .read =>
    ((q.take 1).bind fun r => r.1.head?.map fun b => (r.2, Answer.byte b)).getD (q, .thrown)
  | .readBytes buf off len =>
    if len < 0 then (q, .thrown)
    else (q.take len.toNat).elim (q, .thrown) fun r => (r.2, .bytes (splice buf off.toNat r.1) len)
  | .skip len =>
    if len < 0 then (q, .thrown)
    else (q.take len.toNat).elim (q, .thrown) fun r => (r.2, .skipped len)

/-- The pipe holds the items of the queue. -/
def Represents {cap : ℕ} (p : Pipe) (q : Fifo UInt8 cap) : Prop :=
  ∃ data t u, p = pipe data t u ∧ data.length = cap ∧ t < cap ∧ u ≤ cap ∧
    q.items = window data t u

section

variable {cap : ℕ} {p : Pipe} {q : Fifo UInt8 cap}

theorem Represents.contents (h : Represents p q) : p.contents = q.items := by
  obtain ⟨data, t, u, rfl, -, -, -, hq⟩ := h
  rw [contents_pipe, hq]

theorem Represents.freespace (h : Represents p q) : p.freespace = q.free := by
  obtain ⟨data, t, u, rfl, rfl, -, hu, hq⟩ := h
  rw [freespace_pipe hu, Fifo.free, hq, length_window hu]

theorem represents_new (h : 0 < cap) : Represents (Pipe.new cap) (Fifo.empty UInt8 cap) :=
  ⟨List.replicate cap 0, 0, 0, rfl, List.length_replicate, h, Nat.zero_le _, rfl⟩

theorem elim_of_thrown {α : Type} {o : Option α} {f : α → Fifo UInt8 cap × Answer}
    (hf : ∀ a, (f a).2 ≠ .thrown) (h : (o.elim (q, .thrown) f).2 = .thrown) :
    (o.elim (q, .thrown) f).1 = q := by
  cases o with
  | none => rfl
  | some a => exact absurd h (hf a)

/-- A call with a length. -/
theorem ite_elim_of_thrown {α : Type} {o : Option α} {f : α → Fifo UInt8 cap × Answer} {len : ℤ}
    (hf : ∀ a, (f a).2 ≠ .thrown)
    (h : (if len < 0 then (q, .thrown) else o.elim (q, .thrown) f).2 = .thrown) :
    (if len < 0 then (q, .thrown) else o.elim (q, .thrown) f).1 = q := by
  split at h
  · rename_i hneg
    rw [if_pos hneg]
  · rename_i hneg
    rw [if_neg hneg]
    exact elim_of_thrown hf h

/-- A call that throws does not change the queue. -/
theorem callFifo_of_thrown {c : Call} (h : (callFifo q c).2 = .thrown) :
    (callFifo q c).1 = q := by
  cases c with
  | write b => exact elim_of_thrown (fun _ => nofun) h
  | writeBytes buf off len => exact ite_elim_of_thrown (fun _ => nofun) h
  | read =>
    cases htake : q.take 1 with
    | none => rw [callFifo, htake]; rfl
    | some r =>
      cases hhead : r.1.head? <;> rw [callFifo, htake, Option.bind_some, hhead] at h ⊢
      · rfl
      · nomatch h
  | readBytes buf off len => exact ite_elim_of_thrown (fun _ => nofun) h
  | skip len => exact ite_elim_of_thrown (fun _ => nofun) h

/-- The call `c` does to the pipe what it does to the queue, and gives the same. -/
def Simulates {cap : ℕ} (p : Pipe) (q : Fifo UInt8 cap) (c : Call) : Prop :=
  Represents (p.call c).1 (callFifo q c).1 ∧ (p.call c).2 = (callFifo q c).2

theorem simulates_write (hcap : cap ≤ 2 ^ 30) (h : Represents p q) (b : UInt8) :
    Simulates p q (.write b) := by
  have hrep := h
  obtain ⟨data, t, u, rfl, rfl, ht, hu, hq⟩ := h
  have hlen : q.items.length = u := by rw [hq, length_window hu]
  rcases Nat.lt_or_eq_of_le hu with hlt | rfl
  · rw [Simulates, Pipe.call, write_pipe b hlt (by omega), callFifo,
      Fifo.put_of_le (by rw [List.length_singleton]; omega)]
    refine ⟨⟨_, t, u + 1, rfl, List.length_set, ht, hlt, ?_⟩, rfl⟩
    show q.items ++ [b] = _
    rw [hq, Nat.add_comm t u, window_set b hlt]
  · rw [Simulates, Pipe.call, write_full, callFifo,
      Fifo.put_of_lt (by rw [List.length_singleton]; omega)]
    exact ⟨hrep, rfl⟩

theorem simulates_writeBytes (hcap : cap ≤ 2 ^ 30) (h : Represents p q) {buf : List UInt8}
    {off len : ℤ} (hc : Call.Fits (.writeBytes buf off len)) :
    Simulates p q (.writeBytes buf off len) := by
  have hrep := h
  obtain ⟨data, t, u, rfl, rfl, ht, hu, hq⟩ := h
  have hlen : q.items.length = u := by rw [hq, length_window hu]
  rw [Simulates, Pipe.call, callFifo]
  rcases lt_or_ge len 0 with hneg | hnonneg
  · rw [writeBytes, if_pos hneg, if_pos hneg]
    exact ⟨hrep, rfl⟩
  obtain ⟨n, rfl⟩ := Int.eq_ofNat_of_zero_le hnonneg
  obtain ⟨hoff, hfits⟩ := hc hnonneg
  obtain ⟨off, rfl⟩ := Int.eq_ofNat_of_zero_le hoff
  have hfits : off + n ≤ buf.length := by omega
  have hslice := length_slice hfits
  rw [if_neg (by omega), Int.toNat_natCast, Int.toNat_natCast]
  rcases Nat.lt_or_ge data.length (u + n) with hfull | hroom
  · rw [writeBytes, if_neg (by omega), freespace_pipe hu, if_pos (by omega),
      Fifo.put_of_lt (by omega)]
    exact ⟨hrep, rfl⟩
  · rw [writeBytes_pipe (by omega) hroom (by omega) hfits, Fifo.put_of_le (by omega)]
    refine ⟨⟨_, t, u + n, rfl, length_put, ht, hroom, ?_⟩, rfl⟩
    have hput := @window_put _ data t u (slice buf off n) (by omega)
    rw [hslice, Nat.add_comm u t] at hput
    show q.items ++ _ = _
    rw [hq, hput]

theorem simulates_read (h : Represents p q) : Simulates p q .read := by
  have hrep := h
  obtain ⟨data, t, u, rfl, rfl, ht, hu, hq⟩ := h
  have hlen : q.items.length = u := by rw [hq, length_window hu]
  cases u with
  | zero =>
    rw [Simulates, Pipe.call, read_empty, callFifo, Fifo.take_of_lt (by omega)]
    exact ⟨hrep, rfl⟩
  | succ u =>
    have hwin := window_succ hu ht
    have hhead : (q.items.take 1).head? = some data[t] := by
      rw [hq, hwin]
      rfl
    rw [Simulates, Pipe.call, read_pipe ht, callFifo, Fifo.take_of_le (by omega), Option.bind_some]
    simp only [hhead, Option.map_some, Option.getD_some]
    refine ⟨⟨data, (t + 1) % data.length, u, rfl, rfl, Nat.mod_lt _ (by omega), by omega, ?_⟩, rfl⟩
    show q.items.drop 1 = _
    rw [hq, window_mod, hwin, List.drop_one, List.tail_cons]

theorem simulates_readBytes (h : Represents p q) {buf : List UInt8} {off len : ℤ}
    (hc : Call.Fits (.readBytes buf off len)) : Simulates p q (.readBytes buf off len) := by
  have hrep := h
  obtain ⟨data, t, u, rfl, rfl, ht, hu, hq⟩ := h
  have hlen : q.items.length = u := by rw [hq, length_window hu]
  rw [Simulates, Pipe.call, callFifo]
  rcases lt_or_ge len 0 with hneg | hnonneg
  · rw [readBytes, if_pos hneg, if_pos hneg]
    exact ⟨hrep, rfl⟩
  obtain ⟨n, rfl⟩ := Int.eq_ofNat_of_zero_le hnonneg
  obtain ⟨hoff, hfits⟩ := hc hnonneg
  obtain ⟨off, rfl⟩ := Int.eq_ofNat_of_zero_le hoff
  rw [if_neg (by omega), Int.toNat_natCast, Int.toNat_natCast]
  rcases Nat.lt_or_ge u n with hempty | hn
  · rw [readBytes, if_neg (by omega), pipe_pipeSize, if_pos (by omega),
      Fifo.take_of_lt (by omega)]
    exact ⟨hrep, rfl⟩
  · rw [readBytes_pipe ht hu hn (by omega), Fifo.take_of_le (by omega)]
    refine ⟨⟨data, (t + n) % data.length, u - n, rfl, rfl, Nat.mod_lt _ (by omega), by omega, ?_⟩,
      ?_⟩
    · show q.items.drop n = _
      rw [hq, window_mod, window_drop hu hn]
    · show Answer.bytes (splice buf off (window data t n)) n =
        Answer.bytes (splice buf off (q.items.take n)) n
      rw [hq, window_take hn]

theorem simulates_skip (hcap : cap ≤ 2 ^ 30) (h : Represents p q) (len : ℤ) :
    Simulates p q (.skip len) := by
  have hrep := h
  obtain ⟨data, t, u, rfl, rfl, ht, hu, hq⟩ := h
  have hlen : q.items.length = u := by rw [hq, length_window hu]
  rw [Simulates, Pipe.call, callFifo]
  rcases lt_or_ge len 0 with hneg | hnonneg
  · rw [skip, if_pos hneg, if_pos hneg]
    exact ⟨hrep, rfl⟩
  obtain ⟨n, rfl⟩ := Int.eq_ofNat_of_zero_le hnonneg
  rw [if_neg (by omega), Int.toNat_natCast]
  rcases Nat.lt_or_ge u n with hempty | hn
  · rw [skip, if_neg (by omega), pipe_pipeSize, if_pos (by omega), Fifo.take_of_lt (by omega)]
    exact ⟨hrep, rfl⟩
  · rw [skip_pipe ht hn (by omega), Fifo.take_of_le (by omega)]
    refine ⟨⟨data, (t + n) % data.length, u - n, rfl, rfl, Nat.mod_lt _ (by omega), by omega, ?_⟩,
      rfl⟩
    show q.items.drop n = _
    rw [hq, window_mod, window_drop hu hn]

/-- **A call of a pipe does what it does to the queue.** -/
theorem simulates_call (hcap : cap ≤ 2 ^ 30) (h : Represents p q) {c : Call} (hc : c.Fits) :
    Simulates p q c := by
  cases c with
  | write b => exact simulates_write hcap h b
  | writeBytes buf off len => exact simulates_writeBytes hcap h hc
  | read => exact simulates_read h
  | readBytes buf off len => exact simulates_readBytes h hc
  | skip len => exact simulates_skip hcap h len

end

/-! ## Runs -/

/-- The pipe after a call. -/
def Pipe.step (p : Pipe) (c : Call) : Pipe := (p.call c).1

/-- What a call gives, with the free space after it. -/
def Pipe.shown (p : Pipe) (c : Call) : List (Answer × ℤ) := [((p.call c).2, (p.step c).freespace)]

/-- The queue after a call. -/
def stepFifo {cap : ℕ} (q : Fifo UInt8 cap) (c : Call) : Fifo UInt8 cap := (callFifo q c).1

/-- What a call of the queue gives, with the room after it. -/
def shownFifo {cap : ℕ} (q : Fifo UInt8 cap) (c : Call) : List (Answer × ℤ) :=
  [((callFifo q c).2, (stepFifo q c).free)]

/-- **A pipe is a bounded queue.**  In every sequence of calls the answers and the free space are
those of the queue, the pipe holds its items, and a call that throws leaves them. -/
theorem pipe_refines_fifo {cap : ℕ} (h0 : 1 ≤ cap) (hcap : cap ≤ 2 ^ 30) (calls : List Call)
    (hfits : ∀ c ∈ calls, c.Fits) :
    outputs Pipe.step Pipe.shown (Pipe.new cap) calls =
        outputs stepFifo shownFifo (Fifo.empty UInt8 cap) calls ∧
      (run Pipe.step (Pipe.new cap) calls).contents =
        (run stepFifo (Fifo.empty UInt8 cap) calls).items ∧
      ∀ c : Call, c.Fits → ((run Pipe.step (Pipe.new cap) calls).call c).2 = .thrown →
        ((run Pipe.step (Pipe.new cap) calls).step c).contents =
          (run Pipe.step (Pipe.new cap) calls).contents := by
  have hstep : ∀ (p : Pipe) (q : Fifo UInt8 cap) (c : Call), c.Fits → Represents p q →
      Represents (p.step c) (stepFifo q c) := fun p q c hc h => (simulates_call hcap h hc).1
  have hrun := run_of_lockstep hstep hfits (represents_new h0)
  refine ⟨outputs_of_lockstep hstep (fun p q c hc h => ?_) hfits (represents_new h0),
    hrun.contents, fun c hc hthrown => ?_⟩
  · rw [Pipe.shown, shownFifo, (simulates_call hcap h hc).2, (hstep p q c hc h).freespace]
  · rw [(hstep _ _ c hc hrun).contents, hrun.contents, stepFifo, callFifo_of_thrown]
    rw [← (simulates_call hcap hrun hc).2, hthrown]

/-- Three bytes through a pipe of two: the second call finds no room. -/
theorem pipe_refines_fifo_two :
    outputs Pipe.step Pipe.shown (Pipe.new 2) [.write 7, .writeBytes [8, 9] 0 2, .read] =
        outputs stepFifo shownFifo (Fifo.empty UInt8 2) [.write 7, .writeBytes [8, 9] 0 2, .read] ∧
      (run Pipe.step (Pipe.new 2) [.write 7, .writeBytes [8, 9] 0 2, .read]).contents =
        (run stepFifo (Fifo.empty UInt8 2) [.write 7, .writeBytes [8, 9] 0 2, .read]).items :=
  have h := @pipe_refines_fifo 2 (by decide) (by decide)
    [.write 7, .writeBytes [8, 9] 0 2, .read] (by
      intro c hc
      simp only [List.mem_cons, List.not_mem_nil, or_false] at hc
      rcases hc with rfl | rfl | rfl
      · trivial
      · exact fun _ => ⟨by decide, by decide⟩
      · trivial)
  ⟨h.1, h.2.1⟩

end Pipes
end SoftPhone
