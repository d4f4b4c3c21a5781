/-
The platform calls the storage modules make on a flash partition, and their
checksum.

* `EspErr`: the error codes;
* `FlashFault`: what may happen to one flash operation. An error may be
  reported, or power lost, after a program operation programmed a prefix of its
  bytes or an erase cleared some of its sectors;
* `espPartitionRead`, `espPartitionWrite`, `espPartitionEraseRange`: the three
  calls, on any state that holds a flash image, each logged with the state it
  found; `wp_read`, `wp_write`, `wp_erase` are their rules;
* `espCrc32Le`: the CRC-32 of `esp_crc32_le`, as the host build computes it.
-/
import ArcticController.Base.FaultM
import ArcticController.Base.NorFlash

namespace ArcticController

/-- The errors an `esp_err_t` reports; success is not among them. -/
inductive EspErr where
  | fail
  | noMem
  | invalidArg
  | invalidState
  | invalidSize
  | notFound
  | other (code : UInt32)
deriving DecidableEq, Repr

/-- The flash operations of the partition interface. -/
inductive FlashOp where
  | read (off len : ℕ)
  | write (off : ℕ) (bytes : List UInt8)
  | erase (off len : ℕ)
deriving DecidableEq, Repr

/-- What happens to one flash operation: nothing unusual, an error, or a loss
of power. The last two come after `bytes` bytes of a program operation, or the
sectors `sectors` of an erase, took effect. -/
inductive FlashFault where
  | none
  | error (e : EspErr) (bytes : ℕ) (sectors : ℕ → Bool)
  | cut (bytes : ℕ) (sectors : ℕ → Bool)

instance : Inhabited FlashFault := ⟨.none⟩

def FlashFault.isNone : FlashFault → Bool
  | .none => true
  | _ => false

lemma FlashFault.isNone_iff (f : FlashFault) : f.isNone = true ↔ f = .none := by
  cases f <;> simp [FlashFault.isNone]

/-- A loss of power. -/
def FlashFault.isCut : FlashFault → Bool
  | .cut _ _ => true
  | _ => false

/-- The erase unit of the flash chip. -/
def flashSectorSize : ℕ := 4096

/-! ### What a claim may rely on -/

section Relies

variable {σ : Type}

/-- A rely under which an operation may report an error. -/
def Rely.MayFail (R : Rely FlashFault (FlashOp × σ)) : Prop :=
  ∃ o e k sel, R.allowed o (.error e k sel)

/-- A rely under which power may be lost. -/
def Rely.MayCut (R : Rely FlashFault (FlashOp × σ)) : Prop :=
  ∃ o k sel, R.allowed o (.cut k sel)

/-- Every operation succeeds. -/
def noFaults : Rely FlashFault (FlashOp × σ) := ⟨fun _ f => f = .none, fun _ => True⟩

lemma covers_noFaults (ops : List ((FlashOp × σ) × FlashFault)) :
    noFaults.Covers ops ↔ ops.all (fun p => p.2.isNone) = true := by
  simp [Rely.Covers, noFaults, FlashFault.isNone_iff]

lemma FaultM.Quiet.covers {τ ε α : Type} {m : FaultM τ FlashFault (FlashOp × σ) ε α}
    (hm : FaultM.Quiet m) (s : τ) : noFaults.Covers (m s []).ops := (hm s).2

/-- Anything may happen to any operation. -/
def anyFaults : Rely FlashFault (FlashOp × σ) := ⟨fun _ _ => True, fun _ => True⟩

@[simp] lemma not_mayFail_noFaults : ¬ (noFaults : Rely FlashFault (FlashOp × σ)).MayFail := by
  rintro ⟨o, e, k, sel, h⟩
  exact FlashFault.noConfusion h

@[simp] lemma not_mayCut_noFaults : ¬ (noFaults : Rely FlashFault (FlashOp × σ)).MayCut := by
  rintro ⟨o, k, sel, h⟩
  exact FlashFault.noConfusion h

end Relies

/-! ### The three operations -/

/-- States that hold a flash image. -/
class OnFlash (σ : Type) where
  flash : σ → NorFlash
  withFlash : σ → NorFlash → σ

section Operations

variable {σ : Type} [OnFlash σ]

open OnFlash (flash withFlash)

/-- `esp_partition_read`. -/
def espPartitionRead (off len : ℕ) : FaultM σ FlashFault (FlashOp × σ) EspErr (List UInt8) :=
  .perform (fun s => (.read off len, s)) fun fault s =>
    if off + len ≤ (flash s).size then
      match fault with
      | .none => (.val ((flash s).read off len), s)
      | .error e _ _ => (.err e, s)
      | .cut _ _ => (.cut, s)
    else (.err .invalidSize, s)

/-- `esp_partition_write`. -/
def espPartitionWrite (off : ℕ) (bytes : List UInt8) :
    FaultM σ FlashFault (FlashOp × σ) EspErr Unit :=
  .perform (fun s => (.write off bytes, s)) fun fault s =>
    if off + bytes.length ≤ (flash s).size then
      match fault with
      | .none => (.val (), withFlash s ((flash s).program off bytes))
      | .error e k _ => (.err e, withFlash s ((flash s).program off (bytes.take k)))
      | .cut k _ => (.cut, withFlash s ((flash s).program off (bytes.take k)))
    else (.err .invalidSize, s)

/-- `esp_partition_erase_range`, which refuses a range that is not made of
whole sectors. -/
def espPartitionEraseRange (off len : ℕ) : FaultM σ FlashFault (FlashOp × σ) EspErr Unit :=
  .perform (fun s => (.erase off len, s)) fun fault s =>
    let erased := fun sel => withFlash s ((flash s).eraseSectors flashSectorSize off len sel)
    if off % flashSectorSize = 0 ∧ len % flashSectorSize = 0 then
      if off + len ≤ (flash s).size then
        match fault with
        | .none => (.val (), erased fun _ => true)
        | .error e _ sel => (.err e, erased sel)
        | .cut _ sel => (.cut, erased sel)
      else (.err .invalidSize, s)
    else (.err .invalidArg, s)

lemma quiet_read (off len : ℕ) :
    FaultM.Quiet (espPartitionRead off len : FaultM σ FlashFault (FlashOp × σ) EspErr _) :=
  FaultM.quiet_perform _ _

lemma quiet_write (off : ℕ) (bytes : List UInt8) :
    FaultM.Quiet (espPartitionWrite off bytes : FaultM σ FlashFault (FlashOp × σ) EspErr _) :=
  FaultM.quiet_perform _ _

lemma quiet_erase (off len : ℕ) :
    FaultM.Quiet (espPartitionEraseRange off len : FaultM σ FlashFault (FlashOp × σ) EspErr _) :=
  FaultM.quiet_perform _ _

/-! ### The rules of the three operations -/

variable {R : Rely FlashFault (FlashOp × σ)} {s : σ}

variable {off len : ℕ} {bytes : List UInt8}

lemma wp_read (hR : R.promise (.read off len, s)) (hin : off + len ≤ (flash s).size) :
    wp R (espPartitionRead off len)
      (Ends R.MayFail R.MayCut (fun bytes s' => bytes = (flash s).read off len ∧ s' = s)
        (fun s' => s' = s)) s := by
  refine wp_perform (fun f hf => ?_) hR
  simp only [if_pos hin]
  cases f with
  | none => exact ⟨rfl, rfl⟩
  | error e k sel => exact ⟨⟨_, e, k, sel, hf⟩, rfl⟩
  | cut k sel => exact ⟨⟨_, k, sel, hf⟩, rfl⟩

/-- A read leaves the state alone, wherever it reads. -/
lemma wp_read_any (hR : R.promise (.read off len, s)) :
    wp R (espPartitionRead off len) (fun _ s' => s' = s) s := by
  refine wp_perform (fun f _ => ?_) hR
  split
  · cases f <;> rfl
  · rfl

/-- What a read returns are the bytes of the chip. -/
lemma wp_read_val (hR : R.promise (.read off len, s)) :
    wp R (espPartitionRead off len)
      (fun o s' => s' = s ∧ ∀ bytes, o = .val bytes → bytes = (flash s).read off len) s := by
  refine wp_perform (fun f _ => ?_) hR
  split
  · cases f with
    | none => exact ⟨rfl, fun bytes h => (Outcome.val.inj h).symm⟩
    | error e k sel => exact ⟨rfl, nofun⟩
    | cut k sel => exact ⟨rfl, nofun⟩
  · exact ⟨rfl, nofun⟩

/-- A read inside the chip that nothing disturbs. -/
lemma runs_read (hin : off + len ≤ (flash s).size) :
    FaultM.Runs (espPartitionRead off len) s ((flash s).read off len) s := by
  refine ⟨[((.read off len, s), .none)], ?_⟩
  simp only [espPartitionRead, FaultM.perform, List.headD_nil, if_pos hin]
  rfl

/-- A program operation inside the chip that nothing disturbs. -/
lemma run_write (hin : off + bytes.length ≤ (flash s).size) :
    (espPartitionWrite off bytes : FaultM σ FlashFault (FlashOp × σ) EspErr Unit) s []
      = ⟨.val (), withFlash s ((flash s).program off bytes), [], [((.write off bytes, s), .none)]⟩ := by
  simp only [espPartitionWrite, FaultM.perform, List.headD_nil, if_pos hin]
  rfl

/-- An erase of whole sectors of the chip that nothing disturbs. -/
lemma run_erase (haligned : off % flashSectorSize = 0 ∧ len % flashSectorSize = 0)
    (hin : off + len ≤ (flash s).size) :
    (espPartitionEraseRange off len : FaultM σ FlashFault (FlashOp × σ) EspErr Unit) s []
      = ⟨.val (), withFlash s ((flash s).eraseSectors flashSectorSize off len fun _ => true), [],
          [((.erase off len, s), .none)]⟩ := by
  simp only [espPartitionEraseRange, FaultM.perform, List.headD_nil, if_pos haligned, if_pos hin]
  rfl

/-- The bytes an interruption that `R` allows may leave programmed. -/
def Rely.Interrupts (R : Rely FlashFault (FlashOp × σ)) (o : FlashOp × σ) (k : ℕ) : Prop :=
  (∃ e sel, R.allowed o (.error e k sel)) ∨ ∃ sel, R.allowed o (.cut k sel)

/-- An interrupted program operation has programmed a prefix of its bytes. -/
lemma wp_write (hR : R.promise (.write off bytes, s)) (hin : off + bytes.length ≤ (flash s).size) :
    wp R (espPartitionWrite off bytes)
      (Ends R.MayFail R.MayCut
        (fun _ s' => s' = withFlash s ((flash s).program off bytes))
        (fun s' => ∃ k, R.Interrupts (.write off bytes, s) k ∧
          s' = withFlash s ((flash s).program off (bytes.take k)))) s := by
  refine wp_perform (fun f hf => ?_) hR
  simp only [if_pos hin]
  cases f with
  | none => rfl
  | error e k sel => exact ⟨⟨_, e, k, sel, hf⟩, k, .inl ⟨e, sel, hf⟩, rfl⟩
  | cut k sel => exact ⟨⟨_, k, sel, hf⟩, k, .inr ⟨sel, hf⟩, rfl⟩

/-- The same with a view of the operation. -/
lemma wpObs_write {ω : Type} {obs : (FlashOp × σ) × FlashFault → Option ω}
    {Q : Outcome EspErr Unit → σ → List ω → Prop} (hR : R.promise (.write off bytes, s))
    (hin : off + bytes.length ≤ (flash s).size)
    (hok : Q (.val ()) (withFlash s ((flash s).program off bytes))
      ([((.write off bytes, s), .none)].filterMap obs))
    (herr : ∀ e k sel, R.allowed (.write off bytes, s) (.error e k sel) →
      Q (.err e) (withFlash s ((flash s).program off (bytes.take k)))
      ([((.write off bytes, s), .error e k sel)].filterMap obs))
    (hcut : ∀ k sel, R.allowed (.write off bytes, s) (.cut k sel) →
      Q .cut (withFlash s ((flash s).program off (bytes.take k)))
      ([((.write off bytes, s), .cut k sel)].filterMap obs)) :
    wpObs R obs (espPartitionWrite off bytes) Q s := by
  refine wpObs_perform (fun f hf => ?_) hR
  simp only [if_pos hin]
  cases f with
  | none => exact hok
  | error e k sel => exact herr e k sel hf
  | cut k sel => exact hcut k sel hf

/-- An interrupted erase has erased some of its sectors. -/
lemma wp_erase (hR : R.promise (.erase off len, s))
    (haligned : off % flashSectorSize = 0 ∧ len % flashSectorSize = 0)
    (hin : off + len ≤ (flash s).size) :
    wp R (espPartitionEraseRange off len)
      (Ends R.MayFail R.MayCut
        (fun _ s' =>
          s' = withFlash s ((flash s).eraseSectors flashSectorSize off len fun _ => true))
        (fun s' => ∃ sel,
          s' = withFlash s ((flash s).eraseSectors flashSectorSize off len sel))) s := by
  refine wp_perform (fun f hf => ?_) hR
  simp only [if_pos haligned, if_pos hin]
  cases f with
  | none => rfl
  | error e k sel => exact ⟨⟨_, e, k, sel, hf⟩, sel, rfl⟩
  | cut k sel => exact ⟨⟨_, k, sel, hf⟩, sel, rfl⟩

/-- A program operation programs a prefix of its bytes, or nothing. -/
lemma keeps_write {P : σ → Prop} (hR : ∀ s, R.promise (.write off bytes, s))
    (h : ∀ s k, P s → P (withFlash s ((flash s).program off (bytes.take k)))) :
    Keeps R P (espPartitionWrite off bytes : FaultM σ FlashFault (FlashOp × σ) EspErr Unit) := by
  refine fun s hs => wp_perform (fun f _ => ?_) (hR s)
  split
  · cases f with
    | none => simpa using h s bytes.length hs
    | error e k sel => exact h s k hs
    | cut k sel => exact h s k hs
  · exact hs

/-- An erase erases some sectors of its range. -/
lemma keeps_erase {P : σ → Prop} (hR : ∀ s, R.promise (.erase off len, s))
    (h : ∀ s sel, P s → P (withFlash s ((flash s).eraseSectors flashSectorSize off len sel))) :
    Keeps R P (espPartitionEraseRange off len : FaultM σ FlashFault (FlashOp × σ) EspErr Unit) := by
  refine fun s hs => wp_perform (fun f _ => ?_) (hR s)
  dsimp only
  split
  · split
    · cases f with
      | none => exact h s _ hs
      | error e k sel => exact h s sel hs
      | cut k sel => exact h s sel hs
    · exact hs
  · exact hs

lemma keeps_read {P : σ → Prop} (hR : ∀ s, R.promise (.read off len, s)) :
    Keeps R P (espPartitionRead off len) := fun s hs =>
  wp_mono (wp_read_any (hR s)) fun _ _ hs' => hs' ▸ hs

/-- A program operation whose errors `R` tells apart by the operation. -/
lemma wp_write_cases {Q : Outcome EspErr Unit → σ → Prop} (hR : R.promise (.write off bytes, s))
    (hin : off + bytes.length ≤ (flash s).size)
    (hok : Q (.val ()) (withFlash s ((flash s).program off bytes)))
    (herr : ∀ e k sel, R.allowed (.write off bytes, s) (.error e k sel) →
      Q (.err e) (withFlash s ((flash s).program off (bytes.take k))))
    (hcut : ∀ k sel, R.allowed (.write off bytes, s) (.cut k sel) →
      Q .cut (withFlash s ((flash s).program off (bytes.take k)))) :
    wp R (espPartitionWrite off bytes) Q s :=
  @wp_of_wpObs _ _ _ _ _ _ Unit (fun _ => none) _ _ _ (wpObs_write hR hin hok herr hcut)

/-- An erase whose errors `R` tells apart by the operation. -/
lemma wp_erase_cases {Q : Outcome EspErr Unit → σ → Prop} (hR : R.promise (.erase off len, s))
    (haligned : off % flashSectorSize = 0 ∧ len % flashSectorSize = 0)
    (hin : off + len ≤ (flash s).size)
    (hok : Q (.val ()) (withFlash s ((flash s).eraseSectors flashSectorSize off len fun _ => true)))
    (herr : ∀ e k sel, R.allowed (.erase off len, s) (.error e k sel) →
      Q (.err e) (withFlash s ((flash s).eraseSectors flashSectorSize off len sel)))
    (hcut : ∀ k sel, R.allowed (.erase off len, s) (.cut k sel) →
      Q .cut (withFlash s ((flash s).eraseSectors flashSectorSize off len sel))) :
    wp R (espPartitionEraseRange off len) Q s := by
  refine wp_perform (fun f hf => ?_) hR
  simp only [if_pos haligned, if_pos hin]
  cases f with
  | none => exact hok
  | error e k sel => exact herr e k sel hf
  | cut k sel => exact hcut k sel hf

end Operations

/-! ### The checksum -/

/-- One bit of the reflected CRC-32 division. -/
def crcBit (c : UInt32) : UInt32 := if c &&& 1 = 1 then (0xEDB88320 : UInt32) ^^^ (c >>> 1) else c >>> 1

/-- The entry of the CRC table for one byte. -/
def crcTable (i : UInt32) : UInt32 := crcBit^[8] i

/-- `esp_crc32_le`: the CRC-32 of zlib, continued from `crc`. -/
def espCrc32Le (crc : UInt32) (buf : List UInt8) : UInt32 :=
  ~~~ buf.foldl (fun c b => crcTable ((c ^^^ b.toUInt32) &&& 0xFF) ^^^ (c >>> 8)) (~~~ crc)

/-- The check value of CRC-32, the checksum of the digits `123456789`. -/
example : espCrc32Le 0 [0x31, 0x32, 0x33, 0x34, 0x35, 0x36, 0x37, 0x38, 0x39] = 0xCBF43926 := by
  decide +kernel

end ArcticController
