import Ranging.Proofs.Json.Written
import Ranging.Proofs.Settings.Session

/-!
# Settings that are written are read back

Settings of any session are written as a document that is read as the same settings, if all floats
of their field are finite, and as none otherwise (`Session.start_calls_readBack`). A tag's settings
are checked to be finite, those of a field are not: what is not finite is written as `null`, which
is no number to the reader. That a finite float is read back from its text is taken as given, of any
way to write and read floats: the one that runs rounds twice when it reads.
-/
namespace Ranging

open Ranging.Json
open Ranging.Number (Single)

/-! ### Parts of a document -/

def allFinite (xs : List Float) : Bool := xs.all Float.isFinite

section

variable [FloatText]

/-- Those of some floats that are finite are read back from their texts. -/
def AllReadable (xs : List Float) : Prop := ∀ x ∈ xs, x.isFinite → Value.ReadsBack x

instance (xs : List Float) : Decidable (AllReadable xs) :=
  inferInstanceAs (Decidable (∀ x ∈ xs, x.isFinite → Value.ReadsBack x))

omit [FloatText] in
theorem anchorIdOfJson?_toJson (id : UInt8) : anchorIdOfJson? (anchorIdToJson id) = some id := by
  unfold anchorIdOfJson? anchorIdToJson
  rw [Value.natural?_ofNat (Nat.le_of_lt_succ id.toNat_lt) (by decide)]
  exact congrArg some (UInt8.ofNat_toNat)

omit [FloatText] in
theorem pair?_anchorIds (a b : UInt8) :
    (Value.array [anchorIdToJson a, anchorIdToJson b]).pair? anchorIdOfJson? = some (a, b) := by
  have hitems : (Value.array [anchorIdToJson a, anchorIdToJson b]).items? 2 =
      some [anchorIdToJson a, anchorIdToJson b] := rfl
  unfold Value.pair?
  rw [hitems]
  dsimp only
  rw [anchorIdOfJson?_toJson, anchorIdOfJson?_toJson]
  rfl

variable [LawfulFloatText]

theorem Vec3.toJson_sound {p : Vec3 Float} (h : AllReadable p.toList) :
    (p.toJson Value.ofFloat).Sound := by
  refine Value.soundItems_iff.mpr fun item hitem => ?_
  obtain ⟨x, hx, rfl⟩ := List.mem_map.mp hitem
  exact (Value.ofFloat_spec (h x hx)).1

theorem Vec3.ofJson?_toJson {p : Vec3 Float} (h : AllReadable p.toList) :
    Vec3.ofJson? Value.float? (p.toJson Value.ofFloat) =
      if allFinite p.toList then some p else none := by
  obtain ⟨x, y, z⟩ := p
  have hx := (Value.ofFloat_spec (h x (by simp [toList]))).2
  have hy := (Value.ofFloat_spec (h y (by simp [toList]))).2
  have hz := (Value.ofFloat_spec (h z (by simp [toList]))).2
  have hitems : ((⟨x, y, z⟩ : Vec3 Float).toJson Value.ofFloat).items? 3 =
      some [Value.ofFloat x, Value.ofFloat y, Value.ofFloat z] := rfl
  have hall : allFinite (toList ⟨x, y, z⟩) = (x.isFinite && (y.isFinite && z.isFinite)) := by
    simp [allFinite, toList]
  unfold ofJson?
  rw [hitems, hall]
  dsimp only
  rw [hx, hy, hz]
  cases x.isFinite <;> cases y.isFinite <;> cases z.isFinite <;> rfl

end

namespace Settings

/-! ### Settings of a tag -/

theorem matchingOfJson?_name (m : Pairing.Matching) :
    matchingOfJson? (.text (some (matchingName m))) = some m := by
  cases m <;> rfl

/-- The whole numbers of a tag's settings are words of 64 bits. -/
structure TagSettings.Fits (s : TagSettings) : Prop where
  window : s.inactivityWindow ≤ maxWord
  heard : s.heardValidity ≤ maxWord
  flight : s.flightValidity ≤ maxWord
  capacity : s.queueCapacity ≤ maxWord

namespace TagSettings

variable [FloatText] {s : TagSettings}

/-- The floats of the settings are read back from their texts. -/
structure Readable (s : TagSettings) : Prop where
  frequency : s.tickFrequency.isFinite → Value.ReadsBack s.tickFrequency
  height : ∀ height ∈ s.fixedHeight, Value.SingleReadsBack height

/-- The height as it is written. -/
def heightToJson (s : TagSettings) : Value :=
  match s.fixedHeight with
  | none => .null
  | some height => .ofSingle height

theorem heightToJson_spec [LawfulFloatText] (hfinite : ∀ height ∈ s.fixedHeight, height.isFinite)
    (hread : s.Readable) : s.heightToJson.Sound ∧
      nullable? Value.single? s.heightToJson = some s.fixedHeight := by
  have hheight := hread.height
  unfold heightToJson
  cases hfixed : s.fixedHeight with
  | none => exact ⟨trivial, rfl⟩
  | some height =>
    rw [hfixed] at hfinite hheight
    obtain ⟨hsound, hsingle, hnull⟩ := Value.ofSingle_spec (hfinite height rfl) (hheight height rfl)
    refine ⟨hsound, ?_⟩
    dsimp only
    unfold nullable?
    split
    · rename_i hnone
      exact absurd hnone hnull
    · rw [hsingle]
      rfl

theorem fields?_toJson (s : TagSettings) : s.toJson.fields? fieldNames = some [
    some (.ofNat s.receiveTimeout.toNat), some (.ofNat s.inactivityWindow),
    some (.ofNat s.heardValidity), some (.ofNat s.flightValidity),
    some (.text (some (matchingName s.matching))), some (.ofFloat s.tickFrequency),
    some (.ofNat s.queueCapacity), some s.heightToJson,
    some (.array [anchorIdToJson s.trackedPair.1, anchorIdToJson s.trackedPair.2])] :=
  Value.fields?_record (show fieldNames.Nodup by decide)

theorem ofJson?_toJson [LawfulFloatText] (hfits : s.Fits) (hfrequency : s.tickFrequency.isFinite)
    (hheight : ∀ height ∈ s.fixedHeight, height.isFinite) (hread : s.Readable) :
    ofJson? s.toJson = some s := by
  have hlimit : maxWord < 2 ^ 64 := by decide
  have htimeout : ((Value.ofNat s.receiveTimeout.toNat).natural? 65535).map UInt16.ofNat =
      some s.receiveTimeout := by
    rw [Value.natural?_ofNat (Nat.le_of_lt_succ s.receiveTimeout.toNat_lt) (by decide)]
    exact congrArg some UInt16.ofNat_toNat
  have hfloat := (Value.ofFloat_spec hread.frequency).2
  rw [if_pos hfrequency] at hfloat
  unfold ofJson?
  rw [fields?_toJson]
  simp only [Json.optional, htimeout, Value.natural?_ofNat hfits.window hlimit,
    Value.natural?_ofNat hfits.heard hlimit, Value.natural?_ofNat hfits.flight hlimit,
    matchingOfJson?_name, hfloat, Value.natural?_ofNat hfits.capacity hlimit,
    (heightToJson_spec hheight hread).2, pair?_anchorIds, Option.bind_eq_bind, Option.bind_some]
  rfl

theorem toJson_sound [LawfulFloatText] (hheight : ∀ height ∈ s.fixedHeight, height.isFinite)
    (hread : s.Readable) : s.toJson.Sound := by
  refine Value.record_sound fun field hfield => ?_
  have hvalue := List.of_mem_zip hfield |>.2
  simp only [List.mem_cons, List.not_mem_nil, or_false] at hvalue
  rcases hvalue with h | h | h | h | h | h | h | h | h <;> rw [h]
  · exact Value.ofNat_sound _
  · exact Value.ofNat_sound _
  · exact Value.ofNat_sound _
  · exact Value.ofNat_sound _
  · rfl
  · exact (Value.ofFloat_spec hread.frequency).1
  · exact Value.ofNat_sound _
  · exact (heightToJson_spec hheight hread).1
  · exact ⟨Value.ofNat_sound _, Value.ofNat_sound _, trivial⟩

end TagSettings

/-! ### Settings of a field -/

namespace Site

/-- The floats of a site. -/
def floats (s : Site) : List Float := s.position.toList ++ [s.driftPpm, s.clockStart]

variable [FloatText]

theorem fields?_toJson (s : Site) : s.toJson.fields? fieldNames = some [
    some (anchorIdToJson s.id), some (s.position.toJson Value.ofFloat),
    some (.ofFloat s.driftPpm), some (.ofFloat s.clockStart)] :=
  Value.fields?_record (show fieldNames.Nodup by decide)

variable [LawfulFloatText] {s : Site}

theorem ofJson?_toJson (h : AllReadable s.floats) :
    ofJson? s.toJson = if allFinite s.floats then some s else none := by
  obtain ⟨hposition, hrest⟩ := List.forall_mem_append.mp h
  have hdrift := (Value.ofFloat_spec (hrest s.driftPpm (by simp))).2
  have hstart := (Value.ofFloat_spec (hrest s.clockStart (by simp))).2
  have hall : allFinite s.floats =
      (allFinite s.position.toList && (s.driftPpm.isFinite && s.clockStart.isFinite)) := by
    simp [allFinite, floats]
  unfold ofJson?
  rw [fields?_toJson, hall]
  simp only [required, Json.optional, anchorIdOfJson?_toJson, Vec3.ofJson?_toJson hposition, hdrift,
    hstart, Option.bind_eq_bind, Option.bind_some]
  cases allFinite s.position.toList <;> cases s.driftPpm.isFinite <;>
    cases s.clockStart.isFinite <;> rfl

theorem toJson_sound (h : AllReadable s.floats) : s.toJson.Sound := by
  obtain ⟨hposition, hrest⟩ := List.forall_mem_append.mp h
  refine Value.record_sound fun field hfield => ?_
  have hvalue := List.of_mem_zip hfield |>.2
  simp only [List.mem_cons, List.not_mem_nil, or_false] at hvalue
  rcases hvalue with h | h | h | h <;> rw [h]
  · exact Value.ofNat_sound _
  · exact Vec3.toJson_sound hposition
  · exact (Value.ofFloat_spec (hrest s.driftPpm (by simp))).1
  · exact (Value.ofFloat_spec (hrest s.clockStart (by simp))).1

theorem listOfJson?_toJson {sites : List Site} (h : AllReadable (sites.flatMap floats)) :
    listOfJson? (.array (sites.map toJson)) =
      if allFinite (sites.flatMap floats) then some sites else none := by
  show (sites.map toJson).mapM ofJson? = _
  induction sites with
  | nil => rfl
  | cons site sites ih =>
    obtain ⟨hsite, hsites⟩ := List.forall_mem_append.mp (List.flatMap_cons ▸ h)
    have hall : allFinite ((site :: sites).flatMap floats) =
        (allFinite site.floats && allFinite (sites.flatMap floats)) := by
      simp [allFinite]
    rw [List.map_cons, List.mapM_cons, ih hsites, ofJson?_toJson hsite, hall]
    cases allFinite site.floats <;> cases allFinite (sites.flatMap floats) <;> rfl

end Site

namespace FieldSettings

def floats (s : FieldSettings) : List Float :=
  s.sites.flatMap Site.floats ++ (s.tagPosition.toList ++ [s.tagClockStart, s.lossProbability])

/-- The length of a slot is a word of 64 bits. -/
def Fits (s : FieldSettings) : Prop := s.slotMs ≤ maxWord

variable [FloatText]

theorem fields?_toJson (s : FieldSettings) : s.toJson.fields? fieldNames = some [
    some (.array (s.sites.map Site.toJson)), some (s.tagPosition.toJson Value.ofFloat),
    some (.ofFloat s.tagClockStart), some (.ofNat s.slotMs), some (.ofFloat s.lossProbability),
    some (.ofNat s.distanceInterval.toNat), some (.ofNat s.seed.toNat)] :=
  Value.fields?_record (show fieldNames.Nodup by decide)

variable [LawfulFloatText] {s : FieldSettings}

theorem ofJson?_toJson (hfits : s.Fits) (h : AllReadable s.floats) :
    ofJson? s.toJson = if allFinite s.floats then some s else none := by
  obtain ⟨hsites, hrest⟩ := List.forall_mem_append.mp h
  obtain ⟨hposition, hrest⟩ := List.forall_mem_append.mp hrest
  have hstart := (Value.ofFloat_spec (hrest s.tagClockStart (by simp))).2
  have hloss := (Value.ofFloat_spec (hrest s.lossProbability (by simp))).2
  have hlimit : maxWord < 2 ^ 64 := by decide
  have hinterval : ((Value.ofNat s.distanceInterval.toNat).natural? (2 ^ 32 - 1)).map UInt32.ofNat =
      some s.distanceInterval := by
    rw [Value.natural?_ofNat (Nat.le_sub_one_of_lt s.distanceInterval.toNat_lt) (by decide)]
    exact congrArg some UInt32.ofNat_toNat
  have hseed : ((Value.ofNat s.seed.toNat).natural? maxWord).map UInt64.ofNat = some s.seed := by
    have hseed : s.seed.toNat ≤ maxWord := Nat.le_sub_one_of_lt s.seed.toNat_lt
    rw [Value.natural?_ofNat hseed hlimit]
    exact congrArg some UInt64.ofNat_toNat
  have hall : allFinite s.floats = (allFinite (s.sites.flatMap Site.floats) &&
      (allFinite s.tagPosition.toList &&
        (s.tagClockStart.isFinite && s.lossProbability.isFinite))) := by
    simp [allFinite, floats]
  unfold ofJson?
  rw [fields?_toJson, hall]
  simp only [Json.optional, Site.listOfJson?_toJson hsites, Vec3.ofJson?_toJson hposition, hstart,
    Value.natural?_ofNat hfits hlimit, hloss, hinterval, hseed, Option.bind_eq_bind,
    Option.bind_some]
  cases allFinite (s.sites.flatMap Site.floats) <;> cases allFinite s.tagPosition.toList <;>
    cases s.tagClockStart.isFinite <;> cases s.lossProbability.isFinite <;> rfl

theorem toJson_sound (h : AllReadable s.floats) : s.toJson.Sound := by
  obtain ⟨hsites, hrest⟩ := List.forall_mem_append.mp h
  obtain ⟨hposition, hrest⟩ := List.forall_mem_append.mp hrest
  refine Value.record_sound fun field hfield => ?_
  have hvalue := List.of_mem_zip hfield |>.2
  simp only [List.mem_cons, List.not_mem_nil, or_false] at hvalue
  rcases hvalue with h | h | h | h | h | h | h <;> rw [h]
  · refine Value.soundItems_iff.mpr fun item hitem => ?_
    obtain ⟨site, hsite, rfl⟩ := List.mem_map.mp hitem
    exact Site.toJson_sound fun x hx => hsites x (List.mem_flatMap.mpr ⟨site, hsite, hx⟩)
  · exact Vec3.toJson_sound hposition
  · exact (Value.ofFloat_spec (hrest s.tagClockStart (by simp))).1
  · exact Value.ofNat_sound _
  · exact (Value.ofFloat_spec (hrest s.lossProbability (by simp))).1
  · exact Value.ofNat_sound _
  · exact Value.ofNat_sound _

end FieldSettings

/-! ### Documents -/

namespace Document

structure Fits (d : Document) : Prop where
  tag : d.tag.Fits
  field : d.field.Fits

section

variable [FloatText] {d : Document}

/-- The finite floats of a document are read back from their texts. -/
structure Readable (d : Document) : Prop where
  tag : d.tag.Readable
  field : AllReadable d.field.floats

theorem fields?_toJson (d : Document) :
    d.toJson.fields? fieldNames = some [some d.tag.toJson, some d.field.toJson] :=
  Value.fields?_record (show fieldNames.Nodup by decide)

/-- A sound document is read back from its text if its field is finite, and not otherwise. -/
theorem ofText?_text [LawfulFloatText] (hvalid : d.validate = .ok ()) (hfits : d.Fits)
    (hread : d.Readable) :
    ofText? d.text = if allFinite d.field.floats then some d else none := by
  obtain ⟨-, -, -, -, ⟨hfrequency, -⟩, -, hheight, -⟩ :=
    TagSettings.validate_eq_ok_iff.mp (validate_eq_ok_iff.mp hvalid).1
  have hsound : d.toJson.Sound := by
    refine Value.record_sound fun field hfield => ?_
    have hvalue := List.of_mem_zip hfield |>.2
    simp only [List.mem_cons, List.not_mem_nil, or_false] at hvalue
    rcases hvalue with h | h <;> rw [h]
    · exact TagSettings.toJson_sound hheight hread.tag
    · exact FieldSettings.toJson_sound hread.field
  have htext : Value.read d.text.toList = some d.toJson := by
    unfold text
    rw [String.toList_ofList]
    exact Value.read_pretty hsound
  unfold ofText?
  rw [htext]
  unfold ofJson?
  simp only [Option.bind_eq_bind, Option.bind_some, fields?_toJson, Json.optional,
    TagSettings.ofJson?_toJson hfits.tag hfrequency hheight hread.tag,
    FieldSettings.ofJson?_toJson hfits.field hread.field]
  cases allFinite d.field.floats <;> rfl

end

/-! ### Words -/

theorem natural?_le {limit n : Nat} {v : Value} (h : v.natural? limit = some n) : n ≤ limit := by
  unfold Value.natural? at h
  split at h
  · split at h
    · cases h
      assumption
    · cases h
  · cases h

theorem optional_le {standard n : Nat} (hstandard : standard ≤ maxWord) {field : Option Value}
    (h : Json.optional standard (Value.natural? maxWord) field = some n) : n ≤ maxWord := by
  cases field with
  | none =>
    cases h
    exact hstandard
  | some v => exact natural?_le h

end Document

theorem TagSettings.Fits.standard : TagSettings.standard.Fits := by
  constructor <;> decide

theorem TagSettings.Fits.of_ofJson? [FloatText] {v : Value} {s : TagSettings}
    (h : ofJson? v = some s) : s.Fits := by
  obtain ⟨fields, -, h⟩ := Option.bind_eq_some_iff.mp h
  split at h
  · obtain ⟨timeout, -, h⟩ := Option.bind_eq_some_iff.mp h
    obtain ⟨window, hwindow, h⟩ := Option.bind_eq_some_iff.mp h
    obtain ⟨heard, hheard, h⟩ := Option.bind_eq_some_iff.mp h
    obtain ⟨flight, hflight, h⟩ := Option.bind_eq_some_iff.mp h
    obtain ⟨matching, -, h⟩ := Option.bind_eq_some_iff.mp h
    obtain ⟨frequency, -, h⟩ := Option.bind_eq_some_iff.mp h
    obtain ⟨capacity, hcapacity, h⟩ := Option.bind_eq_some_iff.mp h
    obtain ⟨height, -, h⟩ := Option.bind_eq_some_iff.mp h
    obtain ⟨pair, -, h⟩ := Option.bind_eq_some_iff.mp h
    cases h
    exact ⟨Document.optional_le Fits.standard.window hwindow,
      Document.optional_le Fits.standard.heard hheard,
      Document.optional_le Fits.standard.flight hflight,
      Document.optional_le Fits.standard.capacity hcapacity⟩
  · cases h

theorem FieldSettings.Fits.standard : FieldSettings.standard.Fits := by
  show (5 : Nat) ≤ maxWord
  decide

theorem FieldSettings.Fits.of_ofJson? [FloatText] {v : Value} {s : FieldSettings}
    (h : ofJson? v = some s) : s.Fits := by
  obtain ⟨fields, -, h⟩ := Option.bind_eq_some_iff.mp h
  split at h
  · obtain ⟨sites, -, h⟩ := Option.bind_eq_some_iff.mp h
    obtain ⟨position, -, h⟩ := Option.bind_eq_some_iff.mp h
    obtain ⟨start, -, h⟩ := Option.bind_eq_some_iff.mp h
    obtain ⟨slot, hslot, h⟩ := Option.bind_eq_some_iff.mp h
    obtain ⟨loss, -, h⟩ := Option.bind_eq_some_iff.mp h
    obtain ⟨interval, -, h⟩ := Option.bind_eq_some_iff.mp h
    obtain ⟨seed, -, h⟩ := Option.bind_eq_some_iff.mp h
    cases h
    exact Document.optional_le Fits.standard hslot
  · cases h

/-- Settings that are read have words of 64 bits. -/
theorem Document.Fits.of_ofText? [FloatText] {text : String} {d : Document}
    (h : ofText? text = some d) : d.Fits := by
  obtain ⟨value, -, h⟩ := Option.bind_eq_some_iff.mp h
  obtain ⟨fields, -, h⟩ := Option.bind_eq_some_iff.mp h
  split at h
  · rename_i tagField fieldField
    obtain ⟨tag, htag, h⟩ := Option.bind_eq_some_iff.mp h
    obtain ⟨field, hfield, h⟩ := Option.bind_eq_some_iff.mp h
    cases h
    refine ⟨?_, ?_⟩
    · cases tagField with
      | none =>
        cases htag
        exact .standard
      | some v => exact .of_ofJson? htag
    · cases fieldField with
      | none =>
        cases hfield
        exact FieldSettings.Fits.standard
      | some v => exact FieldSettings.Fits.of_ofJson? hfield
  · cases h

/-! ### Sessions -/

open Holder (Call)

/-- What a call is given fits the words that hold it. -/
def Holder.Call.Fits : Call → Prop
  | .updateTag tag => tag.Fits
  | .updateField field => field.Fits
  | _ => True

theorem Holder.Effect.fits [FloatText] {h h' : Holder} {call : Call} (heffect : h.Effect call h')
    (hcall : call.Fits) (hfits : h.document.Fits) : h'.document.Fits := by
  cases heffect with
  | updateTag _ => exact ⟨hcall, hfits.field⟩
  | updateField _ => exact ⟨hfits.tag, hcall⟩
  | load hread _ => exact .of_ofText? hread
  | loadFile hread _ => exact .of_ofText? hread
  | saveFile => exact hfits
  | save _ => exact hfits

namespace Session

section

variable [FloatText]

theorem calls_fits {s : Session} (h : s.holder.document.Fits) {calls : List Call}
    (hcalls : ∀ call ∈ calls, call.Fits) : (s.calls calls).holder.document.Fits := by
  induction calls generalizing s with
  | nil => exact h
  | cons call rest ih =>
    obtain ⟨hcall, hrest⟩ := List.forall_mem_cons.mp hcalls
    refine ih (s := s.call call) ?_ hrest
    rcases s.call_cases call with ⟨_, -, hout⟩ | ⟨_, heffect, -, hout⟩
    · rw [hout]
      exact h
    · rw [hout]
      exact heffect.fits hcall h

/-- Whatever writes and reads the floats, the settings of any session are read back from their text
by a holder of its own, if the floats of the field are finite and every finite float is read back
from the text that is written for it. If one is not finite, the text is no settings document. -/
theorem start_calls_readBack [LawfulFloatText] {calls : List Call}
    (hcalls : ∀ call ∈ calls, call.Fits)
    (hread : (start.calls calls).holder.document.Readable) :
    Holder.standard.load (start.calls calls).holder.text =
      if allFinite (start.calls calls).holder.document.field.floats then
        .ok ⟨(start.calls calls).holder.document, none, false⟩
      else .error .malformed := by
  have hvalid := (Kept.start.calls calls).valid
  have hfits := calls_fits (s := start) ⟨.standard, FieldSettings.Fits.standard⟩ hcalls
  generalize (start.calls calls).holder = h at hvalid hfits hread
  have hback := Document.ofText?_text hvalid hfits hread
  cases hfinite : allFinite h.document.field.floats with
  | true =>
    rw [hfinite] at hback
    exact Holder.load_eq_ok_iff.mpr ⟨h.document, hback, hvalid, rfl⟩
  | false =>
    rw [hfinite] at hback
    exact Holder.load_malformed hback

end

/-- A position infinitely far away, which the checks of a field let through. -/
def lostTag : FieldSettings :=
  { FieldSettings.standard with tagPosition := ⟨1.0 / 0.0, 0.0, 0.0⟩ }

theorem lostTag_valid : (⟨.standard, lostTag⟩ : Document).validate = .ok () :=
  Document.validate_eq_ok_iff.mpr
    ⟨TagSettings.standard_valid, toOption_eq_some_iff.mp (by decide +kernel)⟩

theorem lostTag_readable : Document.Readable ⟨.standard, lostTag⟩ where
  tag := ⟨by decide +kernel, nofun⟩
  field := by
    show AllReadable lostTag.floats
    decide +kernel

/-- Settings that are accepted need not be read back, though all their finite floats are. -/
theorem load_lostTag :
    (start.calls [.updateField lostTag]).holder.document = ⟨.standard, lostTag⟩ ∧
      Document.Fits ⟨.standard, lostTag⟩ ∧ Document.Readable ⟨.standard, lostTag⟩ ∧
      Holder.standard.load (start.calls [.updateField lostTag]).holder.text =
        .error .malformed := by
  have hdocument : (start.calls [.updateField lostTag]).holder.document = ⟨.standard, lostTag⟩ := by
    decide +kernel
  have hfits : Document.Fits ⟨.standard, lostTag⟩ := ⟨.standard, FieldSettings.Fits.standard⟩
  have hnone : Document.ofText? (Document.text ⟨.standard, lostTag⟩) = none := by
    rw [Document.ofText?_text lostTag_valid hfits lostTag_readable]
    exact if_neg (by decide +kernel)
  refine ⟨hdocument, hfits, lostTag_readable, Holder.load_malformed ?_⟩
  unfold Holder.text
  rw [hdocument]
  exact hnone

/-- A tag with a fixed height in the standard field. -/
def level : TagSettings := { TagSettings.standard with fixedHeight := some (Single.ofFloat 1.7) }

/-- The settings of a session with an update and a call that fails are read back. -/
theorem start_calls_readBack_level :
    (∀ call ∈ [Call.updateTag level, .load "]"], call.Fits) ∧
      (start.calls [.updateTag level, .load "]"]).holder.document = ⟨level, .standard⟩ ∧
      Document.Readable ⟨level, .standard⟩ ∧
      Holder.standard.load (start.calls [.updateTag level, .load "]"]).holder.text =
        .ok ⟨⟨level, .standard⟩, none, false⟩ := by
  have hcalls : ∀ call ∈ [Call.updateTag level, .load "]"], call.Fits := by
    refine List.forall_mem_cons.mpr ⟨?_, List.forall_mem_cons.mpr ⟨trivial, nofun⟩⟩
    exact ⟨TagSettings.Fits.standard.window, TagSettings.Fits.standard.heard,
      TagSettings.Fits.standard.flight, TagSettings.Fits.standard.capacity⟩
  have hdocument : (start.calls [.updateTag level, .load "]"]).holder.document =
      ⟨level, .standard⟩ := by
    decide +kernel
  have hreadable : Document.Readable ⟨level, .standard⟩ := by
    refine ⟨⟨?_, ?_⟩, ?_⟩
    · decide +kernel
    · rintro height ⟨⟩
      decide +kernel
    · show AllReadable FieldSettings.standard.floats
      decide +kernel
  have hload := start_calls_readBack hcalls (hdocument ▸ hreadable)
  rw [hdocument, if_pos (by decide +kernel)] at hload
  exact ⟨hcalls, hdocument, hreadable, hload⟩

end Session
end Settings
end Ranging
