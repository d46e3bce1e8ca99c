import Ranging.Proofs.Settings.Sound
import Ranging.Settings.Holder

/-!
# What a holder goes through

Calls that start with the standard settings leave sound settings in the holder, whatever their
arguments are and whatever becomes of the files. A call writes to the holder in several steps
(`Call.steps`), and a step that fails does not take back those before it. That no failure leaves a
trace is therefore a fact about the order of the steps: what can fail comes first
(`Call.run_steps`).
-/
namespace Ranging.Settings

open Ranging.Json (FloatText)

namespace Holder

variable [FloatText] {h h' : Holder}

/-! ### Calls -/

/-- A call on a holder, with what the file that it works on answers. -/
inductive Call where
  | updateTag (tag : TagSettings)
  | updateField (field : FieldSettings)
  | load (text : String)
  | loadFile (path : String) (read : Except FileFault String)
  | saveFile (path : String) (written : Except FileFault Unit)
  | save (written : Except FileFault Unit)

def perform (h : Holder) : Call → Except SettingsError Holder
  | .updateTag tag => h.updateTag tag
  | .updateField field => h.updateField field
  | .load text => h.load text
  | .loadFile path read => h.loadRead path read
  | .saveFile path written => (h.saveWritten path written).map Prod.fst
  | .save written =>
    match h.path with
    | none => .error .noPath
    | some path => (h.saveWritten path written).map Prod.fst

theorem loadFile_eq_perform (h : Holder) (files : FileStore) (path : String) :
    h.loadFile files path = h.perform (.loadFile path (files.readText path)) := rfl

theorem saveFile_eq_perform (h : Holder) (files : FileStore) (path : String) :
    (h.saveFile files path).map Prod.fst =
      h.perform (.saveFile path ((files.writeText path h.text).map fun _ => ())) := by
  unfold saveFile perform
  cases files.writeText path h.text <;> rfl

theorem save_eq_perform (h : Holder) (files : FileStore) :
    (h.save files).map Prod.fst = h.perform
      (.save ((files.writeText (h.path.getD "") h.text).map fun _ => ())) := by
  unfold save perform
  cases h.path with
  | none => rfl
  | some path => exact h.saveFile_eq_perform files path

/-- What a call that succeeds does to a holder. -/
inductive Effect (h : Holder) : Call → Holder → Prop where
  | updateTag {tag : TagSettings} (hvalid : tag.validate = .ok ()) :
      Effect h (.updateTag tag)
        { h with document := { h.document with tag := tag }, modified := true }
  | updateField {field : FieldSettings} (hvalid : field.validate = .ok ()) :
      Effect h (.updateField field)
        { h with document := { h.document with field := field }, modified := true }
  | load {text : String} {d : Document} (hread : Document.ofText? text = some d)
      (hvalid : d.validate = .ok ()) :
      Effect h (.load text) { h with document := d, modified := false }
  | loadFile {text path : String} {d : Document} (hread : Document.ofText? text = some d)
      (hvalid : d.validate = .ok ()) :
      Effect h (.loadFile path (.ok text))
        { document := d, path := some path, modified := false }
  | saveFile {path : String} :
      Effect h (.saveFile path (.ok ())) { h with path := some path, modified := false }
  | save {path : String} (hpath : h.path = some path) :
      Effect h (.save (.ok ())) { h with modified := false }

theorem load_eq_ok_iff {text : String} :
    h.load text = .ok h' ↔ ∃ d, Document.ofText? text = some d ∧ d.validate = .ok () ∧
      h' = { h with document := d, modified := false } := by
  unfold load
  cases Document.ofText? text with
  | none => simp
  | some d => cases hvalid : d.validate <;> simp [hvalid, eq_comm]

theorem load_malformed {text : String} (htext : Document.ofText? text = none) :
    h.load text = .error .malformed := by
  unfold load
  rw [htext]

theorem loadRead_eq_ok_iff {path : String} {read : Except FileFault String} :
    h.loadRead path read = .ok h' ↔ ∃ text h₁, read = .ok text ∧ h.load text = .ok h₁ ∧
      h' = { h₁ with path := some path } := by
  unfold loadRead
  cases read with
  | error fault => simp
  | ok text => cases hload : h.load text <;> simp [hload, eq_comm]

omit [FloatText] in
theorem saveWritten_eq_ok_iff {path : String} {written : Except FileFault Unit} :
    (h.saveWritten path written).map Prod.fst = .ok h' ↔
      written = .ok () ∧ h' = { h with path := some path, modified := false } := by
  cases written <;> simp [saveWritten, Except.map, eq_comm]

theorem Effect.of_perform {call : Call} (hok : h.perform call = .ok h') : h.Effect call h' := by
  cases call with
  | updateTag tag =>
    change h.updateTag tag = .ok h' at hok
    unfold Holder.updateTag at hok
    split at hok
    · cases hok
    · cases hok
      exact .updateTag ‹_›
  | updateField field =>
    change h.updateField field = .ok h' at hok
    unfold Holder.updateField at hok
    split at hok
    · cases hok
    · cases hok
      exact .updateField ‹_›
  | load text =>
    obtain ⟨d, hread, hvalid, rfl⟩ := load_eq_ok_iff.mp hok
    exact .load hread hvalid
  | loadFile path read =>
    obtain ⟨text, h₁, rfl, hload, rfl⟩ := loadRead_eq_ok_iff.mp hok
    obtain ⟨d, hread, hvalid, rfl⟩ := load_eq_ok_iff.mp hload
    exact .loadFile hread hvalid
  | saveFile path written =>
    obtain ⟨rfl, rfl⟩ := saveWritten_eq_ok_iff.mp hok
    exact .saveFile
  | save written =>
    change (match h.path with | none => _ | some path => _) = _ at hok
    cases hpath : h.path with
    | none =>
      rw [hpath] at hok
      cases hok
    | some path =>
      rw [hpath] at hok
      obtain ⟨rfl, rfl⟩ := saveWritten_eq_ok_iff.mp hok
      rw [← hpath]
      exact .save hpath

/-- A call that succeeds leaves sound settings sound. -/
theorem Effect.valid {call : Call} (heffect : h.Effect call h')
    (hvalid : h.document.validate = .ok ()) : h'.document.validate = .ok () := by
  obtain ⟨htag, hfield⟩ := Document.validate_eq_ok_iff.mp hvalid
  cases heffect with
  | updateTag htag' => exact Document.validate_eq_ok_iff.mpr ⟨htag', hfield⟩
  | updateField hfield' => exact Document.validate_eq_ok_iff.mpr ⟨htag, hfield'⟩
  | load _ hread => exact hread
  | loadFile _ hread => exact hread
  | saveFile => exact hvalid
  | save _ => exact hvalid

/-! ### Calls step by step -/

/-- Steps that write to a holder. One that fails leaves what was written before it. -/
abbrev Steps := ExceptT SettingsError (StateM Holder)

namespace Steps

/-- Fails as a result of another computation does. -/
def take {ε α : Type} (report : ε → SettingsError) (result : Except ε α) : Steps α :=
  match result with
  | .error e => throw (report e)
  | .ok a => pure a

def putTag (tag : TagSettings) : Steps Unit :=
  modify fun h => { h with document := { h.document with tag := tag } }

def putField (field : FieldSettings) : Steps Unit :=
  modify fun h => { h with document := { h.document with field := field } }

def putDocument (d : Document) : Steps Unit := modify fun h => { h with document := d }

def putPath (path : String) : Steps Unit := modify fun h => { h with path := some path }

def putModified (modified : Bool) : Steps Unit := modify fun h => { h with modified := modified }

def load (text : String) : Steps Unit := do
  let some d := Document.ofText? text | throw .malformed
  take .flawed d.tag.validate
  take .flawed d.field.validate
  putDocument d
  putModified false

def saveFile (path : String) (written : Except FileFault Unit) : Steps Unit := do
  take (.unwritable path) written
  putPath path
  putModified false

end Steps

open Steps in
/-- The steps of a call, in order. -/
def Call.steps : Call → Steps Unit
  | .updateTag tag => do
    take .flawed tag.validate
    putTag tag
    putModified true
  | .updateField field => do
    take .flawed field.validate
    putField field
    putModified true
  | .load text => Steps.load text
  | .loadFile path read => do
    let text ← take (.unreadable path) read
    Steps.load text
    putPath path
  | .saveFile path written => Steps.saveFile path written
  | .save written => do
    match (← get).path with
    | none => throw .noPath
    | some path => Steps.saveFile path written

/-- What a call leaves in a holder if it comes to `result`: a failure leaves it as it was. -/
def settled (h : Holder) : Except SettingsError Holder → Except SettingsError Unit × Holder
  | .error e => (.error e, h)
  | .ok h' => (.ok (), h')

omit [FloatText] in
theorem Steps.run_bind {α β : Type} (steps : Steps α) (next : α → Steps β) (h : Holder) :
    (steps >>= next).run.run h =
      match steps.run.run h with
      | (.error e, h₁) => (.error e, h₁)
      | (.ok a, h₁) => (next a).run.run h₁ := by
  simp only [ExceptT.run_bind, StateT.run_bind]
  rcases steps.run.run h with ⟨e | a, h₁⟩ <;> rfl

omit [FloatText] in
theorem Steps.run_take_bind {ε α β : Type} (report : ε → SettingsError) (result : Except ε α)
    (next : α → Steps β) (h : Holder) :
    (take report result >>= next).run.run h =
      match result with
      | .error e => (.error (report e), h)
      | .ok a => (next a).run.run h := by
  rw [run_bind]
  cases result <;> rfl

theorem Steps.run_load (h : Holder) (text : String) :
    (Steps.load text).run.run h = h.settled (h.load text) := by
  unfold Steps.load Holder.load
  cases Document.ofText? text with
  | none => rfl
  | some d =>
    have hvalidate : d.validate = d.tag.validate >>= fun _ => d.field.validate := rfl
    dsimp only
    rw [hvalidate]
    cases d.tag.validate with
    | error flaw => rfl
    | ok _ => cases d.field.validate <;> rfl

omit [FloatText] in
theorem Steps.run_saveFile (h : Holder) (path : String) (written : Except FileFault Unit) :
    (Steps.saveFile path written).run.run h =
      h.settled ((h.saveWritten path written).map Prod.fst) := by
  cases written <;> rfl

/-- The steps of a call come to what the call comes to, and one that fails has taken none. -/
theorem Call.run_steps (call : Call) (h : Holder) :
    call.steps.run.run h = h.settled (h.perform call) := by
  cases call with
  | updateTag tag =>
    refine (Steps.run_take_bind .flawed tag.validate _ h).trans ?_
    change _ = h.settled (h.updateTag tag)
    unfold Holder.updateTag
    cases tag.validate <;> rfl
  | updateField field =>
    refine (Steps.run_take_bind .flawed field.validate _ h).trans ?_
    change _ = h.settled (h.updateField field)
    unfold Holder.updateField
    cases field.validate <;> rfl
  | load text => exact Steps.run_load h text
  | loadFile path read =>
    refine (Steps.run_take_bind (.unreadable path) read _ h).trans ?_
    change _ = h.settled (h.loadRead path read)
    unfold loadRead
    cases read with
    | error fault => rfl
    | ok text =>
      dsimp only
      rw [Steps.run_bind, Steps.run_load]
      cases h.load text <;> rfl
  | saveFile path written => exact Steps.run_saveFile h path written
  | save written =>
    refine (Steps.run_bind _ _ h).trans ?_
    change ((match h.path with
      | none => throw SettingsError.noPath
      | some path => Steps.saveFile path written : Steps Unit).run.run h) =
        h.settled (match h.path with
          | none => .error .noPath
          | some path => (h.saveWritten path written).map Prod.fst)
    cases h.path with
    | none => rfl
    | some path => exact Steps.run_saveFile h path written

end Holder

/-! ### Sessions -/

open Holder (Call)

namespace Holder.Call

/-- Whether the call changes settings that came from elsewhere. -/
def updates : Call → Bool
  | .updateTag _ | .updateField _ => true
  | _ => false

/-- The text that the call takes settings from. -/
def text? : Call → Option String
  | .load text | .loadFile _ (.ok text) => some text
  | _ => none

/-- The file that the call names. -/
def path? : Call → Option String
  | .loadFile path _ | .saveFile path _ => some path
  | _ => none

/-- Whether the call makes the settings agree with a text or a file. -/
def settles : Call → Bool
  | .updateTag _ | .updateField _ => false
  | .load _ | .loadFile _ _ | .saveFile _ _ | .save _ => true

end Holder.Call

/-- Calls with their answers, oldest first. -/
abbrev Log := List (Call × Except SettingsError Unit)

namespace Log

/-- The file named by a call, if it succeeded. -/
def named? : Call × Except SettingsError Unit → Option String
  | (call, .ok ()) => call.path?
  | (_, .error _) => none

/-- The files named by calls that succeeded. -/
def paths (log : Log) : List String := log.filterMap named?

/-- Some update succeeded, and no load or save after it did. -/
def Updated (log : Log) : Prop :=
  ∃ before update after, log = before ++ (update, .ok ()) :: after ∧ update.updates ∧
    ∀ call, (call, .ok ()) ∈ after → ¬ call.settles

theorem not_updated_nil : ¬ Updated [] := by
  rintro ⟨before, update, after, hlog, -⟩
  exact List.append_ne_nil_of_right_ne_nil _ (List.cons_ne_nil _ _) hlog.symm

theorem updated_append_singleton {log : Log} {call : Call} {answer : Except SettingsError Unit} :
    Updated (log ++ [(call, answer)]) ↔
      (answer = .ok () ∧ call.updates) ∨ (Updated log ∧ ¬ (answer = .ok () ∧ call.settles)) := by
  constructor
  · rintro ⟨before, update, after, hlog, hupdates, hafter⟩
    rcases List.eq_nil_or_concat after with rfl | ⟨after, last, rfl⟩
    · obtain ⟨-, hlast⟩ := List.append_inj' hlog rfl
      cases hlast
      exact .inl ⟨rfl, hupdates⟩
    · rw [List.concat_eq_append] at hlog hafter
      rw [← List.cons_append, ← List.append_assoc] at hlog
      obtain ⟨rfl, hlast⟩ := List.append_inj' hlog rfl
      cases hlast
      refine .inr ⟨⟨before, update, after, rfl, hupdates, fun call hcall =>
        hafter call (List.mem_append_left _ hcall)⟩, ?_⟩
      rintro ⟨rfl, hsettles⟩
      exact hafter call (List.mem_append_right _ (List.mem_singleton_self _)) hsettles
  · rintro (⟨rfl, hupdates⟩ | ⟨⟨before, update, after, rfl, hupdates, hafter⟩, hnot⟩)
    · exact ⟨log, call, [], rfl, hupdates, fun _ => nofun⟩
    · refine ⟨before, update, after ++ [(call, answer)], by simp, hupdates, fun other hother => ?_⟩
      rcases List.mem_append.mp hother with hother | hother
      · exact hafter other hother
      · cases List.mem_singleton.mp hother
        exact fun hsettles => hnot ⟨rfl, hsettles⟩

end Log

/-- A holder, and the calls that were made on it. -/
structure Session where
  holder : Holder
  log : Log

namespace Session

section

variable [FloatText]

/-- The standard settings, before any call. -/
def start : Session := ⟨.standard, []⟩

/-- Makes a call, step by step, and notes its answer. -/
def call (s : Session) (call : Call) : Session :=
  let (answer, holder) := call.steps.run.run s.holder
  ⟨holder, s.log ++ [(call, answer)]⟩

/-- What comes of a call. -/
def answer (s : Session) (call : Call) : Except SettingsError Unit :=
  (call.steps.run.run s.holder).1

def calls (s : Session) (calls : List Call) : Session := calls.foldl Session.call s

/-- What a session keeps up. -/
structure Kept (s : Session) : Prop where
  valid : s.holder.document.validate = .ok ()
  path : s.holder.path = s.log.paths.getLast?
  modified : s.holder.modified ↔ s.log.Updated

omit [FloatText] in
theorem Kept.start : start.Kept where
  valid := Document.standard_valid
  path := rfl
  modified := ⟨nofun, fun h => absurd h Log.not_updated_nil⟩

theorem call_cases (s : Session) (call : Call) :
    (∃ e, s.answer call = .error e ∧ s.call call = ⟨s.holder, s.log ++ [(call, .error e)]⟩) ∨
    ∃ h, s.holder.Effect call h ∧ s.answer call = .ok () ∧
      s.call call = ⟨h, s.log ++ [(call, .ok ())]⟩ := by
  unfold answer Session.call
  rw [Call.run_steps]
  cases hperform : s.holder.perform call with
  | error e => exact .inl ⟨e, rfl, rfl⟩
  | ok h => exact .inr ⟨h, .of_perform hperform, rfl, rfl⟩

theorem Kept.call {s : Session} (h : s.Kept) (call : Call) : (s.call call).Kept := by
  rcases s.call_cases call with ⟨e, -, hcall⟩ | ⟨holder, heffect, -, hcall⟩
  · rw [hcall]
    refine ⟨h.valid, ?_, ?_⟩
    · simp [Log.paths, Log.named?, h.path]
    · simp [Log.updated_append_singleton, h.modified]
  · rw [hcall]
    refine ⟨heffect.valid h.valid, ?_, ?_⟩
    · cases heffect <;>
        simp [Log.paths, Log.named?, Call.path?, h.path]
    · cases heffect <;>
        simp [Log.updated_append_singleton, Call.updates, Call.settles]

theorem Kept.calls {s : Session} (h : s.Kept) (calls : List Call) : (s.calls calls).Kept := by
  induction calls generalizing s with
  | nil => exact h
  | cons call rest ih => exact ih (h.call call)

theorem call_of_ok {s : Session} {call : Call} (hok : s.answer call = .ok ()) :
    ∃ h, s.holder.Effect call h ∧ s.call call = ⟨h, s.log ++ [(call, .ok ())]⟩ := by
  rcases s.call_cases call with ⟨_, herror, -⟩ | ⟨h, heffect, -, hcall⟩
  · rw [herror] at hok
    cases hok
  · exact ⟨h, heffect, hcall⟩

/-- What a call does in a session, and in what state it leaves the holder. -/
structure Outcome (s : Session) (call : Call) : Prop where
  /-- Both parts of the settings are sound. -/
  tag_valid : (s.call call).holder.document.tag.validate = .ok ()
  field_valid : (s.call call).holder.document.field.validate = .ok ()
  /-- A call that fails leaves the settings, the file behind them and the mark as they were. -/
  unchanged : ∀ e, s.answer call = .error e → (s.call call).holder = s.holder
  /-- Settings that are loaded are all of those in the text. -/
  loaded : ∀ text, call.text? = some text → s.answer call = .ok () →
    Document.ofText? text = some (s.call call).holder.document
  /-- An update stores the part that it is given. -/
  updated : s.answer call = .ok () → (∀ tag, call = .updateTag tag →
    (s.call call).holder.document = { s.holder.document with tag := tag }) ∧
      ∀ field, call = .updateField field →
        (s.call call).holder.document = { s.holder.document with field := field }
  /-- Only updates and loads change the settings, and only loads and saves of a file that they name
  change which file is behind them. -/
  document : ¬ call.updates → call.text? = none →
    (s.call call).holder.document = s.holder.document
  path : call.path? = none → (s.call call).holder.path = s.holder.path
  /-- The file that is saved to is the last one that was named with success. -/
  saved : ∀ written, call = .save written →
    (s.answer call = .error .noPath ↔ s.log.paths = [])
  /-- The mark stands if an update succeeded, and no load or save after it did. -/
  modified : (s.call call).holder.modified ↔ (s.call call).log.Updated

/-- Every call in every session. -/
theorem start_calls_outcome (calls : List Call) (call : Call) :
    (start.calls calls).Outcome call := by
  have hkept := Kept.start.calls calls
  generalize start.calls calls = s at hkept
  have hafter := hkept.call call
  obtain ⟨htag, hfield⟩ := Document.validate_eq_ok_iff.mp hafter.valid
  refine ⟨htag, hfield, fun e he => ?_, fun text htext hok => ?_, fun hok => ?_,
    fun hupdates htext => ?_, fun hpath => ?_, ?_, hafter.modified⟩
  · rcases s.call_cases call with ⟨_, -, hcall⟩ | ⟨_, -, hok, -⟩
    · rw [hcall]
    · rw [hok] at he
      cases he
  · obtain ⟨_, heffect, hcall⟩ := call_of_ok hok
    rw [hcall]
    cases heffect with
    | load hread _ =>
      cases htext
      exact hread
    | loadFile hread _ =>
      cases htext
      exact hread
    | _ => cases htext
  · obtain ⟨_, heffect, hcall⟩ := call_of_ok hok
    rw [hcall]
    constructor
    · rintro tag rfl
      cases heffect
      rfl
    · rintro field rfl
      cases heffect
      rfl
  · rcases s.call_cases call with ⟨_, -, hcall⟩ | ⟨_, heffect, -, hcall⟩
    · rw [hcall]
    · rw [hcall]
      cases heffect with
      | saveFile | save => rfl
      | updateTag | updateField => exact absurd rfl hupdates
      | load | loadFile => cases htext
  · rcases s.call_cases call with ⟨_, -, hcall⟩ | ⟨_, heffect, -, hcall⟩
    · rw [hcall]
    · rw [hcall]
      cases heffect with
      | loadFile | saveFile => cases hpath
      | _ => rfl
  · rintro written rfl
    unfold answer
    rw [Call.run_steps, ← List.getLast?_eq_none_iff, ← hkept.path]
    unfold Holder.perform
    cases s.holder.path with
    | none => simp [Holder.settled]
    | some path => cases written <;> simp [Holder.settled, Holder.saveWritten, Except.map]

end

example : (start.calls [.updateTag .standard, .load "["]).holder.modified = true := by
  decide +kernel

end Session
end Ranging.Settings
