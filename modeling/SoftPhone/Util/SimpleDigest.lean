import SoftPhone.Machine.Run
import SoftPhone.Util.MD5

/-!
# The simple digest

`SimpleDigest` takes the bytes in pieces, as `MD5` does.  Each byte is added to a sum, and the sum is
joined by exclusive or to the next entry of the array, around and around.  `doFinal` returns the
array itself.  `update` and `doFinal` ask for `is_done`, which is never set: what is done after
`doFinal` is done to the array that the caller has got.

* `finished_cut`: it does not matter how the bytes are cut.
* `step_keeps_iff`: when a call leaves the array as it is.
* `obeys_iff`: when a digest stays what `doFinal` has returned.
-/

namespace SoftPhone

open Machine

/-! ## Arrays under exclusive or -/

namespace ExclusiveOr

/-- Each entry of an array is joined with the byte for its index. -/
def xorWith (l : List UInt8) (f : ℕ → UInt8) : List UInt8 := l.mapIdx fun j a => a ^^^ f j

variable {l : List UInt8} {f g : ℕ → UInt8} {i : ℕ} {t : UInt8}

@[simp] theorem length_xorWith : (xorWith l f).length = l.length := List.length_mapIdx

theorem getElem?_xorWith (j : ℕ) : (xorWith l f)[j]? = l[j]?.map (· ^^^ f j) := List.getElem?_mapIdx

theorem xorWith_congr (h : ∀ j < l.length, f j = g j) : xorWith l f = xorWith l g := by
  refine List.ext_getElem? fun j => ?_
  rw [getElem?_xorWith, getElem?_xorWith]
  rcases Nat.lt_or_ge j l.length with hlt | hge
  · rw [h j hlt]
  · rw [List.getElem?_eq_none hge, Option.map_none, Option.map_none]

theorem xorWith_xorWith : xorWith (xorWith l f) g = xorWith l fun j => f j ^^^ g j := by
  refine List.ext_getElem? fun j => ?_
  rw [getElem?_xorWith, getElem?_xorWith, getElem?_xorWith, Option.map_map]
  congr 1
  funext a
  exact UInt8.xor_assoc a (f j) (g j)

theorem map_xor : l.map (· ^^^ t) = xorWith l fun _ => t := by
  refine List.ext_getElem? fun j => ?_
  rw [getElem?_xorWith, List.getElem?_map]

theorem modify_xor : l.modify i (· ^^^ t) = xorWith l fun j => if i = j then t else 0 := by
  refine List.ext_getElem? fun j => ?_
  rw [getElem?_xorWith, List.getElem?_modify]
  congr 1
  funext a
  split
  · rfl
  · exact UInt8.xor_zero.symm

/-- **An array is kept when each of its entries is joined with zero.** -/
theorem xorWith_eq_self_iff : xorWith l f = l ↔ ∀ j < l.length, f j = 0 := by
  constructor
  · intro h j hj
    have hentry := congrArg (fun m : List UInt8 => m[j]?) h
    rw [getElem?_xorWith, List.getElem?_eq_getElem hj, Option.map_some] at hentry
    have hzero : l[j] ^^^ f j = l[j] ^^^ 0 := (Option.some.inj hentry).trans UInt8.xor_zero.symm
    exact (UInt8.xor_right_inj _).mp hzero
  · intro h
    refine List.ext_getElem? fun j => ?_
    rw [xorWith_congr h, getElem?_xorWith, funext fun a : UInt8 => UInt8.xor_zero, Option.map_id']

end ExclusiveOr

open ExclusiveOr

/-! ## The methods -/

/-- The fields of a `SimpleDigest`. -/
structure SimpleDigest where
  messageDigest : List UInt8
  isDone : Bool
  index : ℕ
  addTerm : UInt8
  deriving DecidableEq

namespace SimpleDigest

open MD5 (Chunk)

/-- `init(size)`. -/
def init (size : ℕ) : SimpleDigest := ⟨(List.range size).map UInt8.ofNat, false, 0, 0⟩

/-- A pass of the loop of `update`.  An array without entries throws, after the sum is changed. -/
def absorb (d : SimpleDigest) (b : UInt8) : SimpleDigest × Option Unit :=
  let index := if d.index = d.messageDigest.length then 0 else d.index
  let addTerm := d.addTerm + b
  if index < d.messageDigest.length then
    ({ d with
        messageDigest := d.messageDigest.modify index (· ^^^ addTerm)
        index := index + 1
        addTerm := addTerm }, some ())
  else ({ d with index := index, addTerm := addTerm }, none)

/-- The loop of `update`. -/
def updateLoop (d : SimpleDigest) : List UInt8 → SimpleDigest × Option Unit
  | [] => (d, some ())
  | b :: bs =>
    match d.absorb b with
    | (d, none) => (d, none)
    | (d, some ()) => updateLoop d bs

/-- `update(buffer,offset,len)`: the state that it leaves, and `none` when it has thrown. -/
def update (d : SimpleDigest) (chunk : Chunk) : SimpleDigest × Option Unit :=
  if d.isDone then (d, some ()) else d.updateLoop chunk.bytes

/-- `while (index<message_digest.length) { message_digest[index]^=k; index++; k++; }`, with the number
of passes that are left. -/
def paddingLoop (l : List UInt8) : ℕ → ℕ → ℕ → List UInt8
  | 0, _, _ => l
  | n + 1, index, k => paddingLoop (l.modify index (· ^^^ UInt8.ofNat k)) n (index + 1) (k + 1)

/-- `doFinal()`.  It returns the array of the state that it leaves, not a copy of it. -/
def doFinal (d : SimpleDigest) : SimpleDigest :=
  if d.isDone then d
  else
    let k := d.messageDigest.length - d.index
    { d with
      messageDigest := (paddingLoop d.messageDigest k d.index k).map (· ^^^ d.addTerm)
      index := d.index + k }

/-- The calls on a digest. -/
inductive Call where
  | update (chunk : Chunk)
  | doFinal

/-- A call. -/
def step (d : SimpleDigest) : Call → SimpleDigest
  | .update chunk => (d.update chunk).1
  | .doFinal => d.doFinal

/-- The state after the first `doFinal`, when the bytes were given in the chunks. -/
def finished (size : ℕ) (chunks : List Chunk) : SimpleDigest :=
  (run step (init size) (chunks.map Call.update)).doFinal

/-! ## What the calls do to the array -/

/-- The exclusive or of the running sums that are for the place `j`: the sums are for the places from
`i` on, modulo the size, and start with `t`. -/
def landed (size : ℕ) : ℕ → UInt8 → List UInt8 → ℕ → UInt8
  | _, _, [], _ => 0
  | i, t, b :: bs, j =>
    (if i % size = j then t + b else 0) ^^^ landed size (i + 1) (t + b) bs j

variable {d : SimpleDigest}

theorem landed_congr {size i i' : ℕ} (h : i % size = i' % size) (t : UInt8) (bs : List UInt8)
    (j : ℕ) : landed size i t bs j = landed size i' t bs j := by
  induction bs generalizing i i' t with
  | nil => rfl
  | cons b bs ih =>
    have hnext : (i + 1) % size = (i' + 1) % size := Nat.ModEq.add_right 1 h
    rw [landed, landed, h, ih hnext]

/-- `is_done` is not set, and the index is in the array or at its end. -/
structure Open (d : SimpleDigest) : Prop where
  isDone : d.isDone = false
  index_le : d.index ≤ d.messageDigest.length

theorem init_open (size : ℕ) : (init size).Open := ⟨rfl, Nat.zero_le _⟩

theorem length_init (size : ℕ) : (init size).messageDigest.length = size := by
  rw [init, List.length_map, List.length_range]

theorem update_eq (h : d.Open) (chunk : Chunk) : d.update chunk = d.updateLoop chunk.bytes := by
  rw [update, h.isDone]
  rfl

/-- The loop over an array without entries. -/
theorem updateLoop_of_nil (h : d.Open) (hnil : d.messageDigest = []) (bs : List UInt8) :
    (d.updateLoop bs).1.Open ∧ (d.updateLoop bs).1.messageDigest = [] := by
  cases bs with
  | nil => exact ⟨h, hnil⟩
  | cons b bs =>
    have hlen : d.messageDigest.length = 0 := hnil ▸ rfl
    have hindex : d.index = 0 := Nat.le_zero.mp (hlen ▸ h.index_le)
    have habsorb : d.absorb b = ({ d with index := 0, addTerm := d.addTerm + b }, none) := by
      rw [absorb, hindex, ite_self, hlen]
      rfl
    rw [updateLoop, habsorb]
    exact ⟨⟨h.isDone, Nat.zero_le _⟩, hnil⟩

/-- **A byte is joined to one place.** -/
theorem absorb_spec (h : d.Open) (hpos : 0 < d.messageDigest.length) (b : UInt8) :
    ∃ d' : SimpleDigest, d.absorb b = (d', some ()) ∧ d'.Open ∧
      d'.index = d.index % d.messageDigest.length + 1 ∧ d'.addTerm = d.addTerm + b ∧
      d'.messageDigest = xorWith d.messageDigest fun j =>
        if d.index % d.messageDigest.length = j then d.addTerm + b else 0 := by
  have hindex : (if d.index = d.messageDigest.length then 0 else d.index) =
      d.index % d.messageDigest.length := by
    split
    · next heq => rw [heq, Nat.mod_self]
    · next hne => exact (Nat.mod_eq_of_lt (Nat.lt_of_le_of_ne h.index_le hne)).symm
  have hlt := Nat.mod_lt d.index hpos
  rw [absorb, hindex, if_pos hlt]
  refine ⟨_, rfl, ⟨h.isDone, ?_⟩, rfl, rfl, modify_xor⟩
  show d.index % d.messageDigest.length + 1 ≤ (List.modify _ _ _).length
  rw [List.length_modify]
  exact hlt

/-- **The loop of `update`.** -/
theorem updateLoop_spec (h : d.Open) (hpos : 0 < d.messageDigest.length) (bs : List UInt8) :
    (d.updateLoop bs).1.Open ∧ (0 < d.index → 0 < (d.updateLoop bs).1.index) ∧
      (d.updateLoop bs).1.messageDigest =
        xorWith d.messageDigest (landed d.messageDigest.length d.index d.addTerm bs) := by
  induction bs generalizing d with
  | nil => exact ⟨h, id, (xorWith_eq_self_iff.mpr fun _ _ => rfl).symm⟩
  | cons b bs ih =>
    obtain ⟨d', habsorb, hopen, hindex, hterm, hdigest⟩ := absorb_spec h hpos b
    have hlen : d'.messageDigest.length = d.messageDigest.length := by
      rw [hdigest, length_xorWith]
    obtain ⟨hopen', hpos', hdigest'⟩ := ih hopen (hlen ▸ hpos)
    rw [updateLoop, habsorb]
    refine ⟨hopen', fun _ => hpos' (hindex ▸ Nat.succ_pos _), hdigest'.trans ?_⟩
    rw [hlen, hindex, hterm, hdigest, xorWith_xorWith]
    refine xorWith_congr fun j _ => ?_
    have hnext : (d.index % d.messageDigest.length + 1) % d.messageDigest.length =
        (d.index + 1) % d.messageDigest.length := Nat.mod_add_mod ..
    rw [landed, landed_congr hnext]

/-- **An update**: an exclusive or with the running sums. -/
theorem update_spec (h : d.Open) (chunk : Chunk) :
    (d.update chunk).1.Open ∧
      (d.update chunk).1.messageDigest =
        xorWith d.messageDigest (landed d.messageDigest.length d.index d.addTerm chunk.bytes) := by
  rw [update_eq h]
  rcases Nat.eq_zero_or_pos d.messageDigest.length with hlen | hpos
  · have hnil := List.eq_nil_of_length_eq_zero hlen
    obtain ⟨hopen, hdigest⟩ := updateLoop_of_nil h hnil chunk.bytes
    refine ⟨hopen, hdigest.trans ?_⟩
    rw [hnil]
    rfl
  · obtain ⟨hopen, -, hdigest⟩ := updateLoop_spec h hpos chunk.bytes
    exact ⟨hopen, hdigest⟩

/-- The passes of the loop are for the places from the index on. -/
theorem paddingLoop_eq (l : List UInt8) (n index k : ℕ) :
    paddingLoop l n index k = xorWith l fun j =>
      if index ≤ j ∧ j < index + n then UInt8.ofNat (k + (j - index)) else 0 := by
  induction n generalizing l index k with
  | zero => exact (xorWith_eq_self_iff.mpr fun j _ => if_neg (by omega)).symm
  | succ n ih =>
    rw [paddingLoop, ih, modify_xor, xorWith_xorWith]
    refine xorWith_congr fun j _ => ?_
    rcases Nat.lt_trichotomy index j with hlt | rfl | hgt
    · rw [if_neg hlt.ne, UInt8.zero_xor, show k + 1 + (j - (index + 1)) = k + (j - index) by omega]
      exact if_congr (by omega) rfl rfl
    · rw [if_pos rfl, if_neg (by omega), if_pos (by omega), UInt8.xor_zero, Nat.sub_self,
        Nat.add_zero]
    · rw [if_neg hgt.ne', if_neg (by omega), if_neg (by omega), UInt8.xor_zero]

/-- What `doFinal` joins to the place `j`. -/
def finalTerm (d : SimpleDigest) (j : ℕ) : UInt8 :=
  (if d.index ≤ j then UInt8.ofNat (d.messageDigest.length - d.index + (j - d.index)) else 0) ^^^
    d.addTerm

/-- **The finalization**: an exclusive or with the padding and the sum. -/
theorem doFinal_spec (h : d.Open) :
    d.doFinal.Open ∧ d.doFinal.index = d.messageDigest.length ∧ d.doFinal.addTerm = d.addTerm ∧
      d.doFinal.messageDigest = xorWith d.messageDigest d.finalTerm := by
  have hle := h.index_le
  have hdigest : (paddingLoop d.messageDigest (d.messageDigest.length - d.index) d.index
      (d.messageDigest.length - d.index)).map (· ^^^ d.addTerm) =
        xorWith d.messageDigest d.finalTerm := by
    rw [paddingLoop_eq, map_xor, xorWith_xorWith]
    refine xorWith_congr fun j hj => ?_
    rw [finalTerm]
    congr 1
    exact if_congr (by omega) rfl rfl
  have hfinal : d.doFinal =
      { d with
        messageDigest := xorWith d.messageDigest d.finalTerm
        index := d.index + (d.messageDigest.length - d.index) } := by
    rw [doFinal, h.isDone, ← hdigest]
    rfl
  rw [hfinal]
  refine ⟨⟨h.isDone, ?_⟩, Nat.add_sub_cancel' hle, rfl, rfl⟩
  show d.index + (d.messageDigest.length - d.index) ≤ (xorWith d.messageDigest _).length
  rw [length_xorWith]
  omega

/-! ## It does not matter how the bytes are cut -/

theorem updateLoop_append (h : d.Open) (hpos : 0 < d.messageDigest.length) (bs bs' : List UInt8) :
    d.updateLoop (bs ++ bs') = (d.updateLoop bs).1.updateLoop bs' := by
  induction bs generalizing d with
  | nil => rfl
  | cons b bs ih =>
    obtain ⟨d', habsorb, hopen, -, -, hdigest⟩ := absorb_spec h hpos b
    have hlen : d'.messageDigest.length = d.messageDigest.length := by
      rw [hdigest, length_xorWith]
    rw [List.cons_append, updateLoop, updateLoop, habsorb]
    exact ih hopen (hlen ▸ hpos)

/-- The updates of some chunks, in an array with entries. -/
theorem run_update (h : d.Open) (hpos : 0 < d.messageDigest.length) (chunks : List Chunk) :
    run step d (chunks.map Call.update) = (d.updateLoop (chunks.flatMap Chunk.bytes)).1 := by
  induction chunks generalizing d with
  | nil => rfl
  | cons chunk chunks ih =>
    obtain ⟨hopen, hdigest⟩ := update_spec h chunk
    have hlen : (d.update chunk).1.messageDigest.length = d.messageDigest.length := by
      rw [hdigest, length_xorWith]
    rw [List.map_cons, run_cons, List.flatMap_cons, updateLoop_append h hpos, ← update_eq h]
    exact ih hopen (hlen ▸ hpos)

/-- The digest is open after every call, and its array has the same length. -/
theorem step_open (h : d.Open) (call : Call) :
    (step d call).Open ∧ (step d call).messageDigest.length = d.messageDigest.length := by
  cases call with
  | update chunk =>
    obtain ⟨hopen, hdigest⟩ := update_spec h chunk
    exact ⟨hopen, by rw [step, hdigest, length_xorWith]⟩
  | doFinal =>
    obtain ⟨hopen, -, -, hdigest⟩ := doFinal_spec h
    exact ⟨hopen, by rw [step, hdigest, length_xorWith]⟩

theorem run_open (size : ℕ) (calls : List Call) :
    (run step (init size) calls).Open ∧
      (run step (init size) calls).messageDigest.length = size :=
  run_invariant (I := fun d : SimpleDigest => d.Open ∧ d.messageDigest.length = size)
    (fun _ call h => ⟨(step_open h.1 call).1, (step_open h.1 call).2.trans h.2⟩) calls
    ⟨init_open size, length_init size⟩

/-- **It does not matter how the bytes are cut.** -/
theorem finished_cut (size : ℕ) {chunks cut : List Chunk}
    (h : cut.flatMap Chunk.bytes = chunks.flatMap Chunk.bytes) :
    (finished size cut).messageDigest = (finished size chunks).messageDigest := by
  rcases Nat.eq_zero_or_pos size with rfl | hpos
  · have hnil (chunks : List Chunk) : (finished 0 chunks).messageDigest = [] := by
      obtain ⟨hopen, hlen⟩ := run_open 0 (chunks.map Call.update)
      refine List.eq_nil_of_length_eq_zero ?_
      rw [finished, (doFinal_spec hopen).2.2.2, length_xorWith, hlen]
    rw [hnil, hnil]
  · have hinit := hpos.trans_eq (length_init size).symm
    rw [finished, finished, run_update (init_open size) hinit, run_update (init_open size) hinit, h]

/-! ## When the array is kept -/

/-- What a call must not do.  For an update: the running sums that are for one place are zero under
exclusive or.  For `doFinal`: there is no padding, and the sum is zero. -/
def Keeps (d : SimpleDigest) : Call → Prop
  | .update chunk =>
    ∀ j < d.messageDigest.length,
      landed d.messageDigest.length d.index d.addTerm chunk.bytes j = 0
  | .doFinal =>
    d.messageDigest.length = 0 ∨ (d.index = d.messageDigest.length ∧ d.addTerm = 0)

theorem update_keeps_iff (h : d.Open) (chunk : Chunk) :
    (d.update chunk).1.messageDigest = d.messageDigest ↔ Keeps d (.update chunk) := by
  rw [(update_spec h chunk).2, xorWith_eq_self_iff]
  rfl

/-- Padding behind the first place changes the array: a place is joined with the sum only, the next
one with a number, and the one behind it with the number after. -/
theorem exists_finalTerm_ne_zero (hpos : 0 < d.index) (hlt : d.index < d.messageDigest.length) :
    ∃ j < d.messageDigest.length, d.finalTerm j ≠ 0 := by
  by_contra hall
  push Not at hall
  have hterm : d.addTerm = 0 := by
    have hzero := hall 0 (by omega)
    rwa [finalTerm, if_neg (by omega), UInt8.zero_xor] at hzero
  have hpad (j : ℕ) (hle : d.index ≤ j) (hj : j < d.messageDigest.length) :
      (d.messageDigest.length - d.index + (j - d.index)) % 256 = 0 := by
    have hzero := hall j hj
    rw [finalTerm, if_pos hle, hterm, UInt8.xor_zero] at hzero
    have hnat := congrArg UInt8.toNat hzero
    rwa [UInt8.toNat_ofNat'] at hnat
  have hfirst := hpad d.index le_rfl hlt
  have hsecond := hpad (d.index + 1) (by omega) (by omega)
  omega

theorem doFinal_keeps_iff (h : d.Open) (hpos : 0 < d.messageDigest.length → 0 < d.index) :
    d.doFinal.messageDigest = d.messageDigest ↔ Keeps d .doFinal := by
  rw [(doFinal_spec h).2.2.2, xorWith_eq_self_iff]
  constructor
  · intro hall
    rcases Nat.eq_zero_or_pos d.messageDigest.length with hlen | hlen
    · exact .inl hlen
    have hindex : d.index = d.messageDigest.length := by
      rcases Nat.lt_or_eq_of_le h.index_le with hlt | heq
      · obtain ⟨j, hj, hne⟩ := exists_finalTerm_ne_zero (hpos hlen) hlt
        exact absurd (hall j hj) hne
      · exact heq
    have hzero := hall 0 hlen
    rw [finalTerm, if_neg (by omega), UInt8.zero_xor] at hzero
    exact .inr ⟨hindex, hzero⟩
  · rintro (hlen | ⟨hindex, hterm⟩) j hj
    · omega
    · rw [finalTerm, if_neg (by omega), UInt8.zero_xor, hterm]

/-- A digest after `doFinal`: the index is not in the first place any more. -/
structure AfterFinal (d : SimpleDigest) : Prop where
  isOpen : d.Open
  index_pos : 0 < d.messageDigest.length → 0 < d.index

theorem finished_afterFinal (size : ℕ) (chunks : List Chunk) :
    (finished size chunks).AfterFinal := by
  obtain ⟨hopen, -⟩ := run_open size (chunks.map Call.update)
  obtain ⟨hfinal, hindex, -, hdigest⟩ := doFinal_spec hopen
  refine ⟨hfinal, fun hpos => ?_⟩
  rw [finished, hdigest, length_xorWith] at hpos
  rw [finished, hindex]
  exact hpos

theorem AfterFinal.step (h : d.AfterFinal) (call : Call) : (d.step call).AfterFinal := by
  obtain ⟨hopen, hlen⟩ := step_open h.isOpen call
  refine ⟨hopen, fun hpos => ?_⟩
  rw [hlen] at hpos
  cases call with
  | update chunk =>
    rw [SimpleDigest.step, update_eq h.isOpen]
    exact (updateLoop_spec h.isOpen hpos chunk.bytes).2.1 (h.index_pos hpos)
  | doFinal =>
    rw [SimpleDigest.step, (doFinal_spec h.isOpen).2.1]
    exact hpos

/-- **A call leaves the array alone exactly under its condition.** -/
theorem step_keeps_iff (h : d.AfterFinal) (call : Call) :
    (step d call).messageDigest = d.messageDigest ↔ Keeps d call := by
  cases call with
  | update chunk => exact update_keeps_iff h.isOpen chunk
  | doFinal => exact doFinal_keeps_iff h.isOpen h.index_pos

/-- The contract, for the bytes in some chunks before `doFinal` and some calls after it.  The array of
the state is the one that `doFinal` has returned, and that every later `doFinal` returns. -/
structure Obeys (size : ℕ) (chunks : List Chunk) (later : List Call) : Prop where
  cut : ∀ cut : List Chunk, cut.flatMap Chunk.bytes = chunks.flatMap Chunk.bytes →
    (finished size cut).messageDigest = (finished size chunks).messageDigest
  stays : ∀ done, done <+: later →
    (run step (finished size chunks) done).messageDigest = (finished size chunks).messageDigest

/-- **When the contract is met**: every later call leaves the array alone. -/
theorem obeys_iff (size : ℕ) (chunks : List Chunk) (later : List Call) :
    Obeys size chunks later ↔ Meets step Keeps (finished size chunks) later := by
  have hstart := finished_afterFinal size chunks
  have hstep (d : SimpleDigest) (call : Call)
      (h : d.AfterFinal ∧ d.messageDigest = (finished size chunks).messageDigest) :
      (d.step call).AfterFinal ∧
          (d.step call).messageDigest = (finished size chunks).messageDigest ↔ Keeps d call := by
    rw [← step_keeps_iff h.1, h.2]
    exact and_iff_right (h.1.step call)
  have hmeets := meets_iff_forall_prefix hstep ⟨hstart, rfl⟩ later
  rw [hmeets]
  constructor
  · intro h done hdone
    exact ⟨run_invariant (fun _ call h => h.step call) done hstart, h.stays done hdone⟩
  · exact fun h => ⟨fun cut hcut => finished_cut size hcut, fun done hdone => (h done hdone).2⟩

/-- A second `doFinal` changes the digest of the byte 1, and so does an update. -/
theorem not_obeys_one :
    ¬ Obeys 1 [Chunk.whole [1]] [.doFinal] ∧
      ¬ Obeys 1 [Chunk.whole [1]] [.update (Chunk.whole [1])] := by
  refine ⟨fun h => ?_, fun h => ?_⟩
  · exact absurd (h.stays _ (List.prefix_refl _)) (by decide)
  · exact absurd (h.stays _ (List.prefix_refl _)) (by decide)

end SimpleDigest
end SoftPhone
