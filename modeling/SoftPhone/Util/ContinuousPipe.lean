import Mathlib.Data.List.DropRight
import SoftPhone.Util.Pipe

/-!
# The continuous pipe

`ContinuousPipe` overrides the methods of `Pipe`: a byte that is written into a full pipe pushes out
the first one, and an empty pipe is read as zeros.  Writing several bytes discards first what has to
go, through an auxiliary buffer of the size of the pipe, and hands them to `Pipe` at once.

* `writeBytes_of_lt`: more bytes than the pipe is large are never written, the call throws.
* `continuousPipe_agree`: otherwise the calls for several bytes do what single calls do, as long as
  no sum of the two `int` fields overflows, which takes a pipe of more than `2^30` bytes.
-/

namespace SoftPhone
namespace Pipes

open Arrays Words Circular

/-- The fields of a `ContinuousPipe`. -/
structure ContinuousPipe extends Pipe where
  aux : List UInt8
  deriving DecidableEq

/-- `for (int i=0; i<diff; i++) buff[offset+available+i]=0`. -/
def zeroLoop : ℕ → List UInt8 → ℤ → List UInt8 × Option Unit
  | 0, buf, _ => (buf, some ())
  | k + 1, buf, i =>
    match store buf i 0 with
    | none => (buf, none)
    | some buf => zeroLoop k buf (i + 1)

namespace ContinuousPipe

variable (c : ContinuousPipe)

/-- `new ContinuousPipe(size)`. -/
def new (size : ℕ) : ContinuousPipe := ⟨Pipe.new size, List.replicate size 0⟩

/-- `read()`. -/
def read : ContinuousPipe × Option UInt8 :=
  if 0 < c.available then ({ c with toPipe := c.toPipe.read.1 }, c.toPipe.read.2)
  else (c, some 0)

/-- `write(b)`. -/
def write (b : UInt8) : ContinuousPipe × Option Unit :=
  let r := if c.freespace = 0 then c.read else (c, some 0)
  match r.2 with
  | none => (r.1, none)
  | some _ => ({ r.1 with toPipe := (r.1.toPipe.write b).1 }, (r.1.toPipe.write b).2)

/-- `read(buff,offset,length)`: the pipe and the caller's array, and the number of bytes. -/
def readBytes (buf : List UInt8) (off len : ℤ) : (ContinuousPipe × List UInt8) × Option ℤ :=
  if c.available ≥ len then
    let r := c.toPipe.readBytes buf off len
    (({ c with toPipe := r.1.1 }, r.1.2), r.2)
  else
    let r := c.toPipe.readBytes buf off c.available
    match r.2 with
    | none => (({ c with toPipe := r.1.1 }, r.1.2), none)
    | some _ =>
      let z := zeroLoop (len - c.available).toNat r.1.2 (off + c.available)
      (({ c with toPipe := r.1.1 }, z.1), z.2.map fun _ => len)

/-- `write(buff,offset,length)`. -/
def writeBytes (buf : List UInt8) (off len : ℤ) : ContinuousPipe × Option Unit :=
  let r :=
    if c.freespace < len then c.readBytes c.aux 0 (len - c.freespace) else ((c, c.aux), some 0)
  let discarded := { r.1.1 with aux := r.1.2 }
  match r.2 with
  | none => (discarded, none)
  | some _ =>
    let w := discarded.toPipe.writeBytes buf off len
    ({ discarded with toPipe := w.1 }, w.2)

/-- Some bytes are written one after the other. -/
def writeEach (c : ContinuousPipe) : List UInt8 → ContinuousPipe × Option Unit
  | [] => (c, some ())
  | b :: bs =>
    match (c.write b).2 with
    | none => ((c.write b).1, none)
    | some _ => (c.write b).1.writeEach bs

/-- Some bytes are read one after the other. -/
def readEach (c : ContinuousPipe) : ℕ → ContinuousPipe × Option (List UInt8)
  | 0 => (c, some [])
  | n + 1 =>
    match c.read.2 with
    | none => (c.read.1, none)
    | some b => ((c.read.1.readEach n).1, (c.read.1.readEach n).2.map (b :: ·))

end ContinuousPipe

open ContinuousPipe

variable {data aux buf : List UInt8} {t u n off : ℕ} {b : UInt8} {bs : List UInt8}

/-- The continuous pipe with its first byte at the index `t` and with `u` bytes. -/
def cpipe (data aux : List UInt8) (t u : ℕ) : ContinuousPipe := ⟨pipe data t u, aux⟩

@[simp] theorem cpipe_toPipe : (cpipe data aux t u).toPipe = pipe data t u := rfl

@[simp] theorem cpipe_aux : (cpipe data aux t u).aux = aux := rfl

theorem cpipe_available : (cpipe data aux t u).available = u := rfl

/-! ## Reading -/

theorem cread_empty : (cpipe data aux t 0).read = (cpipe data aux t 0, some 0) :=
  if_neg (by rw [cpipe_available]; omega)

theorem cread_succ (ht : t < data.length) :
    (cpipe data aux t (u + 1)).read =
      (cpipe data aux ((t + 1) % data.length) u, some data[t]) := by
  rw [ContinuousPipe.read, cpipe_available, if_pos (by omega), cpipe_toPipe, read_pipe ht]
  rfl

/-- What `n` reads give: the first bytes, and zeros when there are no more. -/
def readings (data : List UInt8) (t u n : ℕ) : List UInt8 :=
  window data t (min n u) ++ List.replicate (n - u) 0

theorem readEach_empty :
    (cpipe data aux t 0).readEach n = (cpipe data aux t 0, some (List.replicate n 0)) := by
  induction n with
  | zero => rfl
  | succ n ih =>
    rw [readEach, cread_empty]
    simp only [ih]
    rfl

theorem readEach_eq (ht : t < data.length) (hu : u ≤ data.length) :
    (cpipe data aux t u).readEach n =
      (cpipe data aux ((t + min n u) % data.length) (u - n), some (readings data t u n)) := by
  induction n generalizing t u with
  | zero =>
    rw [readEach, readings, Nat.zero_min, window_zero, Nat.zero_sub, Nat.add_zero,
      Nat.mod_eq_of_lt ht]
    rfl
  | succ n ih =>
    cases u with
    | zero =>
      rw [readEach_empty, readings, Nat.min_zero, window_zero, Nat.add_zero t, Nat.mod_eq_of_lt ht,
        Nat.zero_sub, Nat.sub_zero, List.nil_append]
    | succ u =>
      have hpos := Nat.mod_lt (t + 1) (Nat.zero_lt_of_lt ht)
      have hreadings : readings data t (u + 1) (n + 1) =
          data[t] :: readings data ((t + 1) % data.length) u n := by
        rw [readings, readings, Nat.add_min_add_right, window_mod, window_succ (by omega) ht,
          Nat.add_sub_add_right, List.cons_append]
      have hmod : ((t + 1) % data.length + min n u) % data.length =
          (t + (min n u + 1)) % data.length := by
        rw [Nat.mod_add_mod, Nat.add_assoc, Nat.add_comm 1]
      rw [readEach, cread_succ ht, hreadings, Nat.add_min_add_right, Nat.add_sub_add_right]
      simp only [ih hpos (show u ≤ data.length by omega), hmod]
      rfl

theorem zeroLoop_eq {i k : ℕ} (h : i + k ≤ buf.length) :
    zeroLoop k buf i = (splice buf i (List.replicate k 0), some ()) := by
  induction k generalizing buf i with
  | zero => rw [zeroLoop, List.replicate_zero, splice_nil]
  | succ k ih =>
    have hi : i < buf.length := by omega
    have ih := @ih (buf.set i 0) (i + 1) (by rw [List.length_set]; omega)
    have hsplice := splice_splice (l := [0]) (m := List.replicate k 0) hi.le
    rw [splice_singleton hi, List.length_singleton, List.singleton_append, ← List.replicate_succ]
      at hsplice
    rw [zeroLoop, store_natCast hi, ← hsplice, ← ih]
    rfl

theorem creadBytes_eq (ht : t < data.length) (hu : u ≤ data.length) (hbuf : off + n ≤ buf.length) :
    (cpipe data aux t u).readBytes buf off n =
      ((cpipe data aux ((t + min n u) % data.length) (u - n),
        splice buf off (readings data t u n)), some (n : ℤ)) := by
  rcases Nat.le_total n u with hle | hle
  · rw [ContinuousPipe.readBytes, cpipe_available, if_pos (by omega), cpipe_toPipe,
      readBytes_pipe ht hu hle hbuf, readings, Nat.min_eq_left hle, Nat.sub_eq_zero_of_le hle,
      List.replicate_zero, List.append_nil]
    rfl
  · have hwin := length_window (t := t) hu
    have hlen : (splice buf off (window data t u)).length = buf.length := length_splice (by omega)
    have hzero := @zeroLoop_eq (splice buf off (window data t u)) (off + u) (n - u) (by omega)
    have hsplice := @splice_splice _ buf (window data t u) (List.replicate (n - u) 0) off (by omega)
    rw [hwin] at hsplice
    rcases Nat.eq_or_lt_of_le hle with rfl | hlt
    · rw [ContinuousPipe.readBytes, cpipe_available, if_pos (by omega), cpipe_toPipe,
        readBytes_pipe ht hu (le_refl u) hbuf, readings, Nat.min_self, Nat.sub_self,
        List.replicate_zero, List.append_nil]
      rfl
    · rw [ContinuousPipe.readBytes, cpipe_available, if_neg (by omega), cpipe_toPipe,
        readBytes_pipe ht hu (le_refl u) (by omega), ← Int.ofNat_sub hle, Int.toNat_natCast,
        ← Int.natCast_add, readings, Nat.min_eq_right hle, Nat.sub_eq_zero_of_le hle, ← hsplice]
      simp only [hzero, Nat.sub_self]
      rfl

/-! ## Writing single bytes -/

/-- The sum `pipe_top+pipe_size` with which a byte is written, when `s` is the sum before the first
write and the number of bytes since.  A full pipe gives up its first byte, whose index starts again
at the end of the buffer. -/
def endSum (size s : ℕ) : ℕ := if s < size then s else size - 1 + (s + 1) % size

theorem endSum_of_lt {size s : ℕ} (h : s + 1 < 2 * size) : endSum size s = s := by
  rw [endSum]
  split
  · rfl
  · rw [Nat.mod_eq_sub_mod (by omega), Nat.mod_eq_of_lt (by omega)]
    omega

theorem endSum_of_le {size s : ℕ} (h : size ≤ s) : endSum size s = size - 1 + (s + 1) % size :=
  if_neg (by omega)

theorem endSum_lt {size s : ℕ} (h : 0 < size) : endSum size s + 1 < 2 * size := by
  have hlt := Nat.mod_lt (s + 1) h
  rw [endSum]
  split <;> omega

theorem endSum_mod {size s : ℕ} (h : 0 < size) : endSum size s % size = s % size := by
  rw [endSum]
  split
  · rfl
  · have hadd : size - 1 + (s + 1) ≡ s [MOD size] := by
      have heq : size - 1 + (s + 1) = size + s := by omega
      rw [heq]
      exact Nat.add_modEq_left
    exact ((Nat.mod_modEq (s + 1) size).add_left (size - 1)).trans hadd

/-- The sums of the later writes depend on the one of this write only. -/
theorem endSum_succ {size s j : ℕ} (h : 0 < size) :
    endSum size (endSum size s + 1 + j) = endSum size (s + (j + 1)) := by
  rcases Nat.lt_or_ge s size with hlt | hge
  · rw [endSum_of_lt (s := s) (by omega)]
    congr 1
    omega
  · have hsum := endSum_of_le hge
    have hcongr : endSum size s + (1 + j + 1) ≡ s + (1 + j + 1) [MOD size] :=
      Nat.ModEq.add_right _ (endSum_mod h)
    have hleft : endSum size s + 1 + j + 1 = endSum size s + (1 + j + 1) := by omega
    have hright : s + (j + 1) + 1 = s + (1 + j + 1) := by omega
    rw [endSum_of_le (s := endSum size s + 1 + j) (by omega),
      endSum_of_le (s := s + (j + 1)) (by omega), hleft, hright, hcongr]

/-- An overflow makes the index negative, or zero by chance. -/
theorem endIndex_of_overflow (h : 2 ^ 31 ≤ t + u) (hlt : t + u < 2 ^ 32) :
    (pipe data t u).endIndex ≤ 0 := by
  have hwrap : int32 ((t : ℤ) + u) = t + u - 2 ^ 32 := by
    rw [int32, ← Int.sub_bmod_right, Int.bmod_eq_of_le (by omega) (by omega)]
    rfl
  have hneg : (t : ℤ) + u - 2 ^ 32 = -(2 ^ 32 - (t + u)) := by omega
  have hnonneg := Int.tmod_nonneg (a := 2 ^ 32 - ((t : ℤ) + u)) data.length (by omega)
  rw [Pipe.endIndex, pipe_pipeTop, pipe_pipeSize, pipe_pipeBuffer, hwrap, hneg, Int.neg_tmod]
  omega

/-- A byte goes behind the last one, unless the sum of the fields overflows: then it goes to the
index 0, or nowhere. -/
theorem write_cases (ht : t < data.length) (hu : u < data.length) (hN : data.length < 2 ^ 31)
    (b : UInt8) :
    t + u < 2 ^ 31 ∧
        (pipe data t u).write b = (pipe (data.set ((t + u) % data.length) b) t (u + 1), some ()) ∨
      2 ^ 31 ≤ t + u ∧ ((pipe data t u).write b = (pipe (data.set 0 b) t (u + 1), some ()) ∨
        ((pipe data t u).write b).2 = none) := by
  rcases Nat.lt_or_ge (t + u) (2 ^ 31) with hsum | hsum
  · exact Or.inl ⟨hsum, write_pipe b hu hsum⟩
  · refine Or.inr ⟨hsum, ?_⟩
    have hle := @endIndex_of_overflow data t u hsum (by omega)
    rcases lt_or_eq_of_le hle with hlt | hzero
    · have hstore : store data (pipe data t u).endIndex b = none := if_neg fun h => by omega
      rw [Pipe.write, pipe_pipeBuffer, pipe_pipeSize, if_neg (by omega), hstore]
      exact Or.inr rfl
    · have hstore : store data 0 b = some (data.set 0 b) := store_natCast (n := 0) (by omega)
      rw [Pipe.write, pipe_pipeBuffer, pipe_pipeSize, if_neg (by omega), hzero, hstore]
      exact Or.inl rfl

/-- The index of the first byte after a write. -/
def topAfter (size t u n : ℕ) : ℕ := (t + (u + n - size)) % size

/-- While there is room, the first byte stays. -/
theorem topAfter_of_le {size : ℕ} (ht : t < size) (h : u + n ≤ size) : topAfter size t u n = t := by
  rw [topAfter, Nat.sub_eq_zero_of_le h, Nat.add_zero, Nat.mod_eq_of_lt ht]

theorem topAfter_add (ht : t < data.length) (hu : u ≤ data.length) :
    topAfter data.length t u 1 + min (u + 1) data.length = endSum data.length (t + u) + 1 := by
  rcases Nat.lt_or_eq_of_le hu with hlt | rfl
  · rw [topAfter_of_le ht hlt, endSum_of_lt (by omega), Nat.min_eq_left hlt, Nat.add_assoc]
  · have hone : data.length + 1 - data.length = 1 := by omega
    have hmod : (t + data.length + 1) % data.length = (t + 1) % data.length := by
      rw [Nat.add_right_comm, Nat.add_mod_right]
    rw [topAfter, hone, endSum_of_le (by omega), hmod, Nat.min_eq_right (by omega)]
    omega

theorem topAfter_succ {size : ℕ} (hu : u ≤ size) :
    topAfter size (topAfter size t u 1) (min (u + 1) size) n = topAfter size t u (n + 1) := by
  rw [topAfter, topAfter, topAfter, Nat.mod_add_mod]
  congr 1
  omega

/-- A write that ends in a write of the pipe below. -/
theorem cases_of_write {c : ContinuousPipe} (ht : t < data.length) (hu : u < data.length)
    (hN : data.length < 2 ^ 31)
    (hwrite : c.write b = (⟨((pipe data t u).write b).1, aux⟩, ((pipe data t u).write b).2)) :
    t + u < 2 ^ 31 ∧
        c.write b = (cpipe (data.set ((t + u) % data.length) b) aux t (u + 1), some ()) ∨
      2 ^ 31 ≤ t + u ∧
        (c.write b = (cpipe (data.set 0 b) aux t (u + 1), some ()) ∨ (c.write b).2 = none) := by
  rw [hwrite]
  rcases write_cases ht hu hN b with ⟨hsum, h⟩ | ⟨hsum, h | h⟩
  · exact Or.inl ⟨hsum, by rw [h]; rfl⟩
  · exact Or.inr ⟨hsum, Or.inl (by rw [h]; rfl)⟩
  · exact Or.inr ⟨hsum, Or.inr h⟩

/-- A single write, with the sum that decides on the index. -/
theorem cwrite_cases (ht : t < data.length) (hu : u ≤ data.length) (hN : data.length < 2 ^ 31)
    (b : UInt8) :
    endSum data.length (t + u) < 2 ^ 31 ∧
        (cpipe data aux t u).write b =
          (cpipe (data.set ((t + u) % data.length) b) aux (topAfter data.length t u 1)
            (min (u + 1) data.length), some ()) ∨
      2 ^ 31 ≤ endSum data.length (t + u) ∧
        ((cpipe data aux t u).write b =
            (cpipe (data.set 0 b) aux (topAfter data.length t u 1) (min (u + 1) data.length),
              some ()) ∨
          ((cpipe data aux t u).write b).2 = none) := by
  have htop := topAfter_add ht hu
  rcases Nat.lt_or_eq_of_le hu with hlt | heq
  · have hzero : topAfter data.length t u 1 = t := topAfter_of_le ht hlt
    have hmin : min (u + 1) data.length = u + 1 := Nat.min_eq_left hlt
    have hfree : (cpipe data aux t u).freespace ≠ 0 := by
      rw [cpipe_toPipe, freespace_pipe hu]
      omega
    have hwrite : (cpipe data aux t u).write b =
        (⟨((pipe data t u).write b).1, aux⟩, ((pipe data t u).write b).2) := by
      rw [ContinuousPipe.write, if_neg hfree]
      rfl
    rw [hzero, hmin] at htop
    rw [hzero, hmin, ← Nat.succ.inj htop]
    exact cases_of_write ht hlt hN hwrite
  · obtain ⟨m, rfl⟩ : ∃ m, u = m + 1 := ⟨u - 1, by omega⟩
    have hone : topAfter data.length t (m + 1) 1 = (t + 1) % data.length := by
      rw [topAfter]
      congr 2
      omega
    have hmin : min (m + 1 + 1) data.length = m + 1 := by omega
    have hfree : (cpipe data aux t (m + 1)).freespace = 0 := by
      rw [cpipe_toPipe, freespace_pipe hu]
      omega
    have hwrite : (cpipe data aux t (m + 1)).write b =
        (⟨((pipe data ((t + 1) % data.length) m).write b).1, aux⟩,
          ((pipe data ((t + 1) % data.length) m).write b).2) := by
      rw [ContinuousPipe.write, if_pos hfree, cread_succ ht]
      rfl
    have hindex : ((t + 1) % data.length + m) % data.length = (t + (m + 1)) % data.length := by
      rw [Nat.mod_add_mod, Nat.add_assoc, Nat.add_comm 1]
    have hpos := Nat.mod_lt (t + 1) (Nat.zero_lt_of_lt ht)
    rw [hone, hmin, ← Nat.add_assoc] at htop
    rw [hone, hmin, ← Nat.succ.inj htop, ← hindex]
    exact cases_of_write hpos (by omega) hN hwrite

theorem topAfter_lt (h : 0 < data.length) : topAfter data.length t u n < data.length :=
  Nat.mod_lt _ h

/-- Single writes without overflow put the bytes behind the last one. -/
theorem writeEach_eq (ht : t < data.length) (hu : u ≤ data.length) (hN : data.length < 2 ^ 31)
    (hsum : ∀ j < bs.length, endSum data.length (t + u + j) < 2 ^ 31) :
    (cpipe data aux t u).writeEach bs =
      (cpipe (put data (t + u) bs) aux (topAfter data.length t u bs.length)
        (min (u + bs.length) data.length), some ()) := by
  induction bs generalizing data t u with
  | nil =>
    rw [writeEach, put, List.length_nil, topAfter_of_le ht hu, Nat.add_zero, Nat.min_eq_left hu]
  | cons b bs ih =>
    have h0 : 0 < data.length := by omega
    rcases @cwrite_cases data aux t u ht hu hN b with ⟨-, hwrite⟩ | ⟨hover, -⟩
    · have htop := topAfter_add ht hu
      have hlen : (data.set ((t + u) % data.length) b).length = data.length := List.length_set
      have ih := @ih (data.set ((t + u) % data.length) b) (topAfter data.length t u 1)
        (min (u + 1) data.length)
        (by rw [hlen]; exact topAfter_lt h0) (by rw [hlen]; exact Nat.min_le_right ..)
        (by rwa [hlen]) fun j hj => by
          rw [hlen, htop, endSum_succ h0]
          exact hsum (j + 1) (Nat.succ_lt_succ hj)
      have hput : put (data.set ((t + u) % data.length) b) (endSum data.length (t + u) + 1) bs =
          put (data.set ((t + u) % data.length) b) (t + u + 1) bs :=
        put_congr (by rw [hlen]; exact Nat.ModEq.add_right 1 (endSum_mod h0))
      have hmin : min (min (u + 1) data.length + bs.length) data.length =
          min (u + (bs.length + 1)) data.length := by omega
      rw [hlen, htop, hput, topAfter_succ hu, hmin] at ih
      rw [writeEach, hwrite, put, List.length_cons]
      exact ih
    · exact absurd (hsum 0 (Nat.succ_pos _)) (Nat.not_lt.mpr hover)

/-- Whatever the sums are, single writes move on the fields, and a byte whose index overflows is
not where it should be. -/
theorem writeEach_getElem? {q : ℕ} (ht : t < data.length) (hu : u ≤ data.length)
    (hN : data.length < 2 ^ 31) (hq : q ≠ 0)
    (hskip : ∀ j < bs.length, endSum data.length (t + u + j) < 2 ^ 31 →
      (t + u + j) % data.length ≠ q)
    (hok : ((cpipe data aux t u).writeEach bs).2 = some ()) :
    ∃ data', ((cpipe data aux t u).writeEach bs).1 =
        cpipe data' aux (topAfter data.length t u bs.length) (min (u + bs.length) data.length) ∧
      data'.length = data.length ∧ data'[q]? = data[q]? := by
  induction bs generalizing data t u with
  | nil =>
    refine ⟨data, ?_, rfl, rfl⟩
    rw [writeEach, List.length_nil, topAfter_of_le ht hu, Nat.add_zero, Nat.min_eq_left hu]
  | cons b bs ih =>
    have h0 : 0 < data.length := by omega
    have htop := topAfter_add ht hu
    obtain ⟨i, hwrite, hi⟩ : ∃ i, (cpipe data aux t u).write b =
        (cpipe (data.set i b) aux (topAfter data.length t u 1) (min (u + 1) data.length),
          some ()) ∧ i ≠ q := by
      rcases @cwrite_cases data aux t u ht hu hN b with ⟨hsum, h⟩ | ⟨-, h | h⟩
      · exact ⟨_, h, hskip 0 (Nat.succ_pos _) hsum⟩
      · exact ⟨0, h, hq.symm⟩
      · rw [writeEach, h] at hok
        nomatch hok
    have hlen : (data.set i b).length = data.length := List.length_set
    rw [writeEach, hwrite] at hok ⊢
    obtain ⟨data', hrest, hlen', hget⟩ := @ih (data.set i b)
      (topAfter data.length t u 1) (min (u + 1) data.length)
      (by rw [hlen]; exact topAfter_lt h0) (by rw [hlen]; exact Nat.min_le_right ..)
      (by rwa [hlen]) (fun j hj => by
        have hmod : (endSum data.length (t + u) + 1 + j) % data.length =
            (t + u + (j + 1)) % data.length := by
          rw [Nat.add_assoc, Nat.add_comm 1 j]
          exact Nat.ModEq.add_right (j + 1) (endSum_mod h0)
        rw [hlen, htop, endSum_succ h0, hmod]
        exact hskip (j + 1) (Nat.succ_lt_succ hj)) hok
    refine ⟨data', ?_, hlen'.trans hlen, by rw [hget, List.getElem?_set_ne hi]⟩
    have hmin : min (min (u + 1) data.length + bs.length) data.length =
        min (u + (bs.length + 1)) data.length := by omega
    rw [hlen, topAfter_succ hu, hmin] at hrest
    exact hrest

/-! ## Writing several bytes -/

theorem writeBytes_zero (h0 : 0 < data.length) (hu : u ≤ data.length) (off : ℤ) :
    (pipe data t u).writeBytes buf off 0 = (pipe data t u, some ()) := by
  rw [Pipe.writeBytes, freespace_pipe hu, pipe_pipeBuffer, if_neg (by omega), if_neg (by omega),
    if_neg (by omega)]
  show (⟨data, t, (u : ℤ) + 0⟩, some ()) = (_ : Pipe × Option Unit)
  rw [Int.add_zero]
  rfl

/-- Discarding bytes does not make the sum of the fields overflow. -/
theorem sum_lt_of_discard {size d : ℕ} (ht : t < size) (hu : u ≤ size) (hN : size < 2 ^ 31)
    (h0 : 0 < d) (hd : d ≤ u) (hsum : endSum size (t + u) < 2 ^ 31) :
    (t + d) % size + (u - d) < 2 ^ 31 := by
  rcases Nat.lt_or_ge (t + d) size with h | h
  · rw [endSum_of_lt (by omega)] at hsum
    rw [Nat.mod_eq_of_lt h]
    omega
  · have hmod : (t + d) % size = t + d - size := by
      rw [Nat.mod_eq_sub_mod h, Nat.mod_eq_of_lt (by omega)]
    omega

/-- What goes is discarded first, and the bytes are put behind the last one. -/
theorem cwriteBytes_eq (ht : t < data.length) (hu : u ≤ data.length)
    (hN : data.length < 2 ^ 31) (haux : aux.length = data.length) (hn : n ≤ data.length)
    (hbuf : off + n ≤ buf.length) (hsum : n ≠ 0 → endSum data.length (t + u) < 2 ^ 31) :
    ∃ aux', (cpipe data aux t u).writeBytes buf off n =
      (cpipe (put data (t + u) (slice buf off n)) aux' (topAfter data.length t u n)
        (min (u + n) data.length), some ()) := by
  have h0 : 0 < data.length := by omega
  have hfree := freespace_pipe (t := t) hu
  rcases Nat.eq_zero_or_pos n with rfl | hpos
  · refine ⟨aux, ?_⟩
    rw [ContinuousPipe.writeBytes, cpipe_toPipe, hfree, if_neg (by omega)]
    simp only [cpipe_toPipe, Int.natCast_zero, writeBytes_zero h0 hu]
    rw [slice_zero, put, topAfter_of_le ht hu, Nat.add_zero, Nat.min_eq_left hu]
    rfl
  have hsum := hsum hpos.ne'
  rcases le_or_gt (u + n) data.length with hroom | hover
  · rw [endSum_of_lt (by omega)] at hsum
    refine ⟨aux, ?_⟩
    rw [ContinuousPipe.writeBytes, cpipe_toPipe, hfree, if_neg (by omega)]
    simp only [cpipe_toPipe, writeBytes_pipe h0 hroom hsum hbuf]
    rw [topAfter_of_le ht hroom, Nat.min_eq_left hroom]
    rfl
  · -- the first `u+n-N` bytes go
    obtain ⟨d, hd⟩ : ∃ d, u + n = data.length + d := ⟨u + n - data.length, by omega⟩
    have hlen : ((n : ℤ) - (data.length - u : ℕ)) = d := by omega
    have hread := @creadBytes_eq data aux aux t u d 0 ht hu (by omega)
    have hmin : min d u = d := by omega
    have htop : topAfter data.length t u n = (t + d) % data.length := by
      rw [topAfter, hd, Nat.add_sub_cancel_left]
    have hsmall := sum_lt_of_discard (d := d) ht hu hN (by omega) (by omega) hsum
    have hput : put data ((t + d) % data.length + (u - d)) (slice buf off n) =
        put data (t + u) (slice buf off n) := by
      refine put_congr ?_
      rw [Nat.mod_add_mod]
      congr 1
      omega
    refine ⟨splice aux 0 (readings data t u d), ?_⟩
    rw [ContinuousPipe.writeBytes, cpipe_toPipe, hfree, if_pos (by omega), cpipe_aux, hlen]
    rw [hmin] at hread
    have hzero : ((0 : ℕ) : ℤ) = 0 := rfl
    rw [hzero] at hread
    have hwrite := @writeBytes_pipe data buf ((t + d) % data.length) (u - d) n off h0 (by omega)
      hsmall hbuf
    simp only [hread, cpipe_toPipe, hwrite, hput]
    rw [htop, Nat.min_eq_right (by omega)]
    have hfull : u - d + n = data.length := by omega
    rw [hfull]
    rfl

/-- The whole pipe is read. -/
theorem readBytes_all (ht : t < data.length ∨ u = 0) (hu : u ≤ data.length) (hbuf : u ≤ buf.length) :
    ∃ t' buf', (pipe data t u).readBytes buf 0 u = ((pipe data t' 0, buf'), some (u : ℤ)) ∧
      buf'.length = buf.length := by
  rcases ht with ht | rfl
  · have hread := @readBytes_pipe data buf t u u 0 ht hu (le_refl u) (by omega)
    rw [Nat.sub_self] at hread
    exact ⟨_, _, hread, length_splice (by rw [length_window hu]; omega)⟩
  · refine ⟨t, buf, ?_, rfl⟩
    rw [Pipe.readBytes, if_neg (by omega), pipe_pipeSize, if_neg (by omega)]
    rfl

/-- **More bytes than the pipe is large are not written.** -/
theorem writeBytes_of_lt (ht : t < data.length ∨ u = 0) (hu : u ≤ data.length)
    (haux : aux.length = data.length) (hn : data.length < n) :
    ((cpipe data aux t u).writeBytes buf off n).2 = none := by
  have hfree := freespace_pipe (t := t) hu
  obtain ⟨t', aux', hread, hlen⟩ := @readBytes_all data aux t u ht hu (by omega)
  have hcread : ∃ z : List UInt8 × Option Unit,
      (cpipe data aux t u).readBytes aux 0 ((n : ℤ) - (data.length - u : ℕ)) =
        ((cpipe data aux t' 0, z.1), z.2.map fun _ => (n : ℤ) - (data.length - u : ℕ)) := by
    refine ⟨zeroLoop ((n : ℤ) - (data.length - u : ℕ) - u).toNat aux' (0 + u), ?_⟩
    rw [ContinuousPipe.readBytes, cpipe_available, if_neg (by omega), cpipe_toPipe]
    simp only [hread]
    rfl
  obtain ⟨⟨aux'', z⟩, hz⟩ := hcread
  rw [ContinuousPipe.writeBytes, cpipe_toPipe, hfree, if_pos (by omega), cpipe_aux, hz]
  cases z with
  | none => rfl
  | some _ =>
    have hfull : (pipe data t' 0).writeBytes buf off n = (pipe data t' 0, none) := by
      rw [Pipe.writeBytes, freespace_pipe (Nat.zero_le _), if_neg (by omega), if_pos (by omega)]
    simp only [Option.map_some, cpipe_toPipe, hfull]

theorem writeBytes_of_nil (buf : List UInt8) (off : ℕ) :
    ((cpipe [] aux 0 0).writeBytes buf off 0).2 = none := by
  rw [ContinuousPipe.writeBytes, cpipe_toPipe, freespace_pipe (Nat.zero_le _), if_neg (by omega)]
  rfl

/-! ## The calls for several bytes -/

/-- Writing `n` bytes at once does what writing them one after the other does, and the pipe holds
the last bytes. -/
def WritesAgree (c : ContinuousPipe) (buf : List UInt8) (off n : ℕ) : Prop :=
  (c.writeBytes buf off n).2 = some () ∧ (c.writeEach (slice buf off n)).2 = some () ∧
    (c.writeBytes buf off n).1.toPipe = (c.writeEach (slice buf off n)).1.toPipe ∧
    (c.writeBytes buf off n).1.contents =
      (c.contents ++ slice buf off n).rtake c.pipeBuffer.length

/-- Reading `n` bytes at once gives the bytes of `n` single reads. -/
def ReadsAgree (c : ContinuousPipe) (buf : List UInt8) (off n : ℕ) : Prop :=
  ∃ c' bs, c.readEach n = (c', some bs) ∧ bs.length = n ∧
    c.readBytes buf off n = ((c', splice buf off bs), some (n : ℤ))

theorem length_readings (hu : u ≤ data.length) : (readings data t u n).length = n := by
  rw [readings, List.length_append, length_window (by omega), List.length_replicate]
  omega

theorem readsAgree (ht : t < data.length ∨ u = 0) (hu : u ≤ data.length)
    (hbuf : off + n ≤ buf.length) : ReadsAgree (cpipe data aux t u) buf off n := by
  rcases ht with ht | rfl
  · exact ⟨_, _, readEach_eq ht hu, length_readings hu, creadBytes_eq ht hu hbuf⟩
  · refine ⟨_, _, readEach_empty, List.length_replicate, ?_⟩
    rcases Nat.eq_zero_or_pos n with rfl | hpos
    · rw [List.replicate_zero, splice_nil]
      rfl
    · have hzero := zeroLoop_eq hbuf
      have hread : (pipe data t 0).readBytes buf off 0 = ((pipe data t 0, buf), some 0) := rfl
      rw [ContinuousPipe.readBytes, cpipe_available, if_neg (by omega), cpipe_toPipe]
      simp only [Int.natCast_zero, hread, Int.sub_zero, Int.add_zero, Int.toNat_natCast, hzero]
      rfl

theorem writesAgree (ht : t < data.length) (hu : u ≤ data.length) (hN : data.length < 2 ^ 31)
    (haux : aux.length = data.length) (hn : n ≤ data.length) (hbuf : off + n ≤ buf.length)
    (hsum : ∀ j < n, endSum data.length (t + u + j) < 2 ^ 31) :
    WritesAgree (cpipe data aux t u) buf off n := by
  have hlen := length_slice hbuf
  have heach := @writeEach_eq data aux t u (slice buf off n) ht hu hN (by rwa [hlen])
  obtain ⟨aux', hbulk⟩ := cwriteBytes_eq ht hu hN haux hn hbuf fun hne =>
    hsum 0 (Nat.pos_of_ne_zero hne)
  rw [hlen] at heach
  refine ⟨by rw [hbulk], by rw [heach], by rw [hbulk, heach]; rfl, ?_⟩
  rw [hbulk]
  show window (put data (t + u) (slice buf off n)) (topAfter data.length t u n)
    (min (u + n) data.length) = _
  obtain ⟨d, hd⟩ : ∃ d, u + n - data.length = d := ⟨_, rfl⟩
  have hput := @window_put _ data (t + d) (u - d) (slice buf off n) (by omega)
  have hsum' : u - d + (t + d) = t + u := by omega
  have hmin : min (u + n) data.length = u - d + n := by omega
  have hwin := length_window (t := t) hu
  rw [hsum', hlen, window_drop hu (by omega)] at hput
  have hmod : window (put data (t + u) (slice buf off n)) ((t + d) % data.length) (u - d + n) =
      window (put data (t + u) (slice buf off n)) (t + d) (u - d + n) := by
    have h := @window_mod _ (put data (t + u) (slice buf off n)) (t + d) (u - d + n)
    rwa [length_put] at h
  rw [topAfter, hd, hmin, hmod, hput, List.rtake, List.length_append, cpipe_toPipe, contents_pipe,
    hwin, hlen, pipe_pipeBuffer, hd, List.drop_append_of_le_length (by omega)]

/-- When a sum overflows, a one that should be in the pipe is a zero. -/
theorem not_writesAgree_of_overflow {size j : ℕ} (ht : t < size) (hu : u ≤ size)
    (hN : size < 2 ^ 31) (hn : n ≤ size) (hj : j < n) (hover : 2 ^ 31 ≤ endSum size (t + u + j)) :
    ¬ WritesAgree (cpipe (List.replicate size 0) aux t u) (List.replicate n 1) 0 n := by
  rintro ⟨-, hok, hsame, hcontents⟩
  have hdata : (List.replicate size (0 : UInt8)).length = size := List.length_replicate
  have hones : slice (List.replicate n (1 : UInt8)) 0 n = List.replicate n 1 := by
    rw [slice, List.drop_zero, List.take_of_length_le List.length_replicate.le]
  rw [hones] at hok hsame hcontents
  have h0 : 0 < size := by omega
  have hlt := endSum_lt (s := t + u + j) h0
  have hmod := endSum_mod (s := t + u + j) h0
  have hq : (t + u + j) % size = endSum size (t + u + j) - size := by
    rw [← hmod, Nat.mod_eq_sub_mod (by omega), Nat.mod_eq_of_lt (by omega)]
  obtain ⟨data', hfinal, hlen, hget⟩ := @writeEach_getElem?
    (List.replicate size 0) aux t u (List.replicate n 1) ((t + u + j) % size) (by rwa [hdata])
    (by rwa [hdata]) (by rwa [hdata]) (by omega) (by
      rw [hdata, List.length_replicate]
      intro i hi hsum heq
      have hij : i = j := by
        refine (add_mod_inj (n := size) (t := t + u) (by omega) (by omega)).mp ?_
        rw [Nat.add_comm i, Nat.add_comm j, heq]
      rw [hij] at hsum
      omega) hok
  rw [hdata, List.length_replicate] at hfinal
  rw [hdata] at hlen
  rw [hsame, hfinal, cpipe_toPipe, contents_pipe, cpipe_toPipe, contents_pipe, pipe_pipeBuffer,
    hdata] at hcontents
  -- the entry for the byte `j`
  have hwin := @length_window _ (List.replicate size (0 : UInt8)) t u (by rwa [hdata])
  have hleft := @getElem?_window _ data' (topAfter size t u n) (min (u + n) size)
    (min (u + n) size - n + j) (by omega) (by omega)
  have hindex : (min (u + n) size - n + j + topAfter size t u n) % size = (t + u + j) % size := by
    rw [topAfter, Nat.add_mod_mod]
    congr 1
    omega
  rw [hlen, hindex, hget, List.getElem?_replicate, if_pos (Nat.mod_lt _ h0), hcontents, List.rtake,
    List.getElem?_drop, List.length_append, hwin, List.length_replicate,
    List.getElem?_append_right (by omega), hwin, List.getElem?_replicate, if_pos (by omega)] at hleft
  exact absurd hleft (by decide)

/-- **The calls of a continuous pipe for several bytes.**  Reading agrees with single reads.
Writing agrees with single writes, whatever the bytes are, when the pipe has room for all of them
and no sum of the two fields overflows; in a pipe of at most `2^30` bytes none does. -/
theorem continuousPipe_agree {size : ℕ} (hN : size < 2 ^ 31) (ht : t < size ∨ size = 0 ∧ t = 0)
    (hu : u ≤ size) :
    (∀ data aux buf off, data.length = size → off + n ≤ buf.length →
        ReadsAgree (cpipe data aux t u) buf off n) ∧
      ((∀ data aux buf off, data.length = size → aux.length = size → off + n ≤ buf.length →
          WritesAgree (cpipe data aux t u) buf off n) ↔
        0 < size ∧ n ≤ size ∧ ∀ j < n, endSum size (t + u + j) < 2 ^ 31) ∧
      (size ≤ 2 ^ 30 → ∀ data aux buf off, data.length = size → aux.length = size →
        off + n ≤ buf.length →
          (WritesAgree (cpipe data aux t u) buf off n ↔ 0 < size ∧ n ≤ size)) := by
  have hnonempty : ∀ {data aux : List UInt8} {buf : List UInt8} {off : ℕ}, data.length = size →
      aux.length = size → WritesAgree (cpipe data aux t u) buf off n → 0 < size ∧ n ≤ size := by
    rintro data aux buf off rfl haux ⟨hbulk, -⟩
    have htop : t < data.length ∨ u = 0 := by omega
    have hle : n ≤ data.length := by
      by_contra hlt
      rw [writeBytes_of_lt htop hu haux (by omega)] at hbulk
      nomatch hbulk
    refine ⟨Nat.pos_of_ne_zero fun hzero => ?_, hle⟩
    obtain rfl : data = [] := List.length_eq_zero_iff.mp hzero
    obtain rfl : n = 0 := Nat.eq_zero_of_le_zero hle
    obtain rfl : u = 0 := Nat.eq_zero_of_le_zero hu
    obtain rfl : t = 0 := by omega
    rw [Int.natCast_zero, writeBytes_of_nil] at hbulk
    nomatch hbulk
  refine ⟨fun data aux buf off hdata hbuf => ?_, ⟨fun h => ?_, ?_⟩, ?_⟩
  · subst hdata
    exact readsAgree (by omega) hu hbuf
  · have hzeros := h (List.replicate size 0) (List.replicate size 0) (List.replicate n 1) 0
      List.length_replicate List.length_replicate (by rw [List.length_replicate]; omega)
    obtain ⟨h0, hn⟩ := hnonempty List.length_replicate List.length_replicate hzeros
    refine ⟨h0, hn, fun j hj => ?_⟩
    by_contra hover
    exact not_writesAgree_of_overflow (by omega) hu hN hn hj (by omega) hzeros
  · rintro ⟨h0, hn, hsum⟩ data aux buf off rfl haux hbuf
    exact writesAgree (by omega) hu hN haux hn hbuf hsum
  · rintro hsmall data aux buf off rfl haux hbuf
    refine ⟨hnonempty rfl haux, fun ⟨h0, hn⟩ => ?_⟩
    refine writesAgree (by omega) hu hN haux hn hbuf fun j _ => ?_
    have hlt := endSum_lt (s := t + u + j) h0
    omega

theorem continuousPipe_agree_four :
    WritesAgree (cpipe [1, 2, 3, 0] [0, 0, 0, 0] 0 3) [7, 8] 0 2 :=
  ((@continuousPipe_agree 0 3 2 4 (by decide) (Or.inl (by decide)) (by decide)).2.2 (by decide)
    [1, 2, 3, 0] [0, 0, 0, 0] [7, 8] 0 rfl rfl (by decide)).mpr (by decide)

/-- Three bytes at once do not go into a pipe of two, one after the other they do. -/
theorem continuousPipe_three :
    ¬ WritesAgree (ContinuousPipe.new 2) [1, 2, 3] 0 3 ∧
      ((ContinuousPipe.new 2).writeBytes [1, 2, 3] 0 3).2 = none ∧
      ((ContinuousPipe.new 2).writeEach [1, 2, 3]).2 = some () ∧
      ((ContinuousPipe.new 2).writeEach [1, 2, 3]).1.contents = [2, 3] := by
  refine ⟨fun h => ?_, by decide, by decide, by decide⟩
  exact absurd h.1 (by decide)

end Pipes
end SoftPhone
