import RegionalCalculator.Proofs.Reading.Marks
import RegionalCalculator.Session.Window

/-!
# The setting and the chosen format

A session keeps the named format that was chosen last, and its wish to hide decimals, beside
the setting that it shares with its host. In force is what came last: a format that the host
wrote, where the setting found at the start counts as written, or the chosen format as the
session published it. While a format of the host is in force, the session does not notice it.
The selector then shows another format, picking that one puts nothing in force, and hiding
decimals replaces the marks. All this cannot happen as long as the session alone writes the
setting and has found the marks of a named format in it.
-/

namespace RegionalCalculator

/-!
# Actions
-/

inductive Action where
  | gesture (g : Gesture)
  | operation (op : Operation)
deriving DecidableEq, Repr

def Action.written? : Action -> Option NumberFormat
  | gesture (.writeSetting f) => some f
  | operation (.writeSetting f) => some f
  | _ => none

namespace Session

def act (s : Session) : Action -> Session
  | .gesture g => s.react g
  | .operation op => s.perform op

def run (s : Session) (actions : List Action) : Session :=
  actions.foldl act s

def chosenFormat (s : Session) : NumberFormat :=
  { s.choice.format with hidesDecimals := s.hidesDecimals }

def publishes (s : Session) : Action -> Bool
  | .gesture (.pickFormat n) => n != s.choice
  | .gesture .toggleDecimals => true
  | .operation (.chooseFormat _) => true
  | .operation (.hideDecimals _) => true
  | _ => false

def hostFormatAfter (s : Session) (held : Option NumberFormat) (a : Action) :
    Option NumberFormat :=
  if s.publishes a then none else a.written?.or held

/-- The format of the host that is in force after a run, if one is. -/
def hostFormat (s : Session) (held : Option NumberFormat) : List Action -> Option NumberFormat
  | [] => held
  | a :: actions => (s.act a).hostFormat (s.hostFormatAfter held a) actions

/-!
# Steps
-/

/-- What an action does to the formats: the host writes the setting, the session publishes its
choice, or all of them stay. -/
inductive FormatStep (s : Session) (a : Action) : Prop where
  | write {f : NumberFormat} :
      a.written? = some f ->
      s.publishes a = false ->
      s.act a = { s with setting := f } ->
      FormatStep s a
  | publish :
      s.publishes a = true ->
      (s.act a).setting = (s.act a).chosenFormat ->
      FormatStep s a
  | keep :
      a.written? = none ->
      s.publishes a = false ->
      (s.act a).setting = s.setting ->
      (s.act a).chosenFormat = s.chosenFormat ->
      FormatStep s a

theorem formatStep_compute {s : Session} {a : Action} (hwritten : a.written? = none)
    (hsilent : s.publishes a = false) (hact : s.act a = s.compute) : FormatStep s a := by
  refine .keep hwritten hsilent ?_ ?_
  · rw [hact, compute_frame]
  · rw [hact, compute_frame]
    rfl

theorem formatStep_gesture (s : Session) (g : Gesture) : FormatStep s (.gesture g) := by
  cases g with
  | assignEntry text => exact .keep rfl rfl rfl rfl
  | press key =>
      cases key with
      | insert insertion => exact .keep rfl rfl rfl rfl
      | delete => exact .keep rfl rfl rfl rfl
      | clearEntry => exact .keep rfl rfl rfl rfl
      | clearResults => exact .keep rfl rfl rfl rfl
      | resetAll => exact .keep rfl rfl rfl rfl
      | equals => exact formatStep_compute rfl rfl rfl
  | pickFormat n =>
      by_cases hsame : n = s.choice
      · have hreact : s.react (.pickFormat n) = s := if_pos hsame
        refine .keep rfl ?_ (congrArg setting hreact) (congrArg chosenFormat hreact)
        rw [publishes, hsame, bne_self_eq_false]
      · have hreact : s.react (.pickFormat n) = s.chooseFormat n := if_neg hsame
        refine .publish (bne_iff_ne.mpr hsame) ?_
        rw [act, hreact]
        rfl
  | toggleDecimals => exact .publish rfl rfl
  | pressEscape => exact .keep rfl rfl rfl rfl
  | pressEnter focused =>
      cases focused with
      | true => exact formatStep_compute rfl rfl rfl
      | false => exact .keep rfl rfl rfl rfl
  | writeSetting f => exact .write rfl rfl rfl

theorem formatStep_operation (s : Session) (op : Operation) : FormatStep s (.operation op) := by
  cases op with
  | assignEntry text => exact .keep rfl rfl rfl rfl
  | dropFocus => exact .keep rfl rfl rfl rfl
  | clearEntry => exact .keep rfl rfl rfl rfl
  | clearResults => exact .keep rfl rfl rfl rfl
  | resetAll => exact .keep rfl rfl rfl rfl
  | reportError message => exact .keep rfl rfl rfl rfl
  | publishResult result working => exact .keep rfl rfl rfl rfl
  | chooseFormat n => exact .publish rfl rfl
  | hideDecimals hide => exact .publish rfl rfl
  | writeSetting f => exact .write rfl rfl rfl

theorem formatStep (s : Session) (a : Action) : FormatStep s a := by
  cases a with
  | gesture g => exact s.formatStep_gesture g
  | operation op => exact s.formatStep_operation op

/-!
# Runs
-/

variable {s : Session} {held : Option NumberFormat}

/-- The invariant: in force is the format of the host, or else the chosen format. -/
theorem setting_act (h : s.setting = held.getD s.chosenFormat) (a : Action) :
    (s.act a).setting = (s.hostFormatAfter held a).getD (s.act a).chosenFormat := by
  cases s.formatStep a with
  | write hwritten hsilent hact =>
      rw [hostFormatAfter, hsilent, hwritten, hact]
      rfl
  | publish hpublishes hsetting =>
      rw [hostFormatAfter, hpublishes, hsetting]
      rfl
  | keep hunwritten hsilent hsetting hchosen =>
      rw [hostFormatAfter, hsilent, hunwritten, hsetting, hchosen, h]
      rfl

theorem setting_run (h : s.setting = held.getD s.chosenFormat) (actions : List Action) :
    (s.run actions).setting = (s.hostFormat held actions).getD (s.run actions).chosenFormat := by
  induction actions generalizing s held with
  | nil => exact h
  | cons a actions ih => exact ih (setting_act h a)

theorem setting_run_start (f : NumberFormat) (actions : List Action) :
    ((start f).run actions).setting =
      ((start f).hostFormat (some f) actions).getD ((start f).run actions).chosenFormat :=
  setting_run rfl actions

/-!
# The marks in force
-/

def AgreesWithHost (n : NamedFormat) (held : Option NumberFormat) : Prop :=
  forall g, held = some g -> n.format.sameMarks g = true

theorem sameMarks_chosenFormat (s : Session) (f : NumberFormat) :
    s.chosenFormat.sameMarks f = s.choice.format.sameMarks f :=
  rfl

theorem sameMarks_setting_iff (h : s.setting = held.getD s.chosenFormat) :
    s.choice.format.sameMarks s.setting = true <-> AgreesWithHost s.choice held := by
  rw [h, ← sameMarks_chosenFormat]
  cases held with
  | none =>
      rw [Option.getD_none]
      exact iff_of_true s.chosenFormat.sameMarks_refl fun g hg => by cases hg
  | some f =>
      rw [Option.getD_some]
      constructor
      · intro hsame g hg
        rw [← Option.some.inj hg]
        exact hsame
      · intro hagrees
        exact hagrees f rfl

/-- Hiding or showing decimals leaves the marks in force, and with them every value and every
error, exactly if the host has not put other marks in force than those of the chosen format. -/
theorem evaluate_hideDecimals_iff (f : NumberFormat) (actions : List Action) (hide : Bool) :
    let s := (start f).run actions
    let held := (start f).hostFormat (some f) actions
    ((s.hideDecimals hide).setting.sameMarks s.setting = true <-> AgreesWithHost s.choice held) ∧
      ((forall entry, evaluate (s.hideDecimals hide).setting entry = evaluate s.setting entry) <->
        AgreesWithHost s.choice held) := by
  intro s held
  have hmarks : (s.hideDecimals hide).setting.sameMarks s.setting = true <->
      AgreesWithHost s.choice held := by
    -- The session publishes the marks of its choice, whatever the setting was.
    have hpublished : (s.hideDecimals hide).setting.sameMarks s.setting =
        s.choice.format.sameMarks s.setting := rfl
    rw [hpublished]
    exact sameMarks_setting_iff (setting_run_start f actions)
  refine ⟨hmarks, ?_⟩
  rw [forall_evaluate_eq_iff, hmarks]

/-- A host without grouping marks finds its decimal comma gone when the decimals are hidden. -/
theorem evaluate_hideDecimals_comma :
    evaluate (start { decimal := .comma, group := none }).setting "1,5".toList =
        .ok (Float.ofBits 0x3FF8000000000000) ∧
      evaluate ((start { decimal := .comma, group := none }).hideDecimals true).setting
          "1,5".toList = .ok (Float.ofBits 0x402E000000000000) := by
  decide +kernel

/-!
# The selector
-/

theorem choice_react_pickFormat (s : Session) (n : NamedFormat) :
    (s.react (.pickFormat n)).choice = n := by
  rw [react]
  split
  · rename_i hsame
    exact hsame.symm
  · rfl

theorem sameMarks_react_pickFormat (s : Session) (n : NamedFormat) :
    n.format.sameMarks (s.react (.pickFormat n)).setting = true <->
      (n = s.choice -> n.format.sameMarks s.setting = true) := by
  rw [react]
  split
  · rename_i hsame
    exact (imp_iff_right hsame).symm
  · rename_i hother
    exact iff_of_true n.format.sameMarks_refl fun hsame => absurd hsame hother

/-- The format that is picked is then the one on show. It is in force as well, unless it was on
show before while the host had put other marks in force. -/
theorem react_pickFormat_iff (f : NumberFormat) (actions : List Action) (n : NamedFormat) :
    let s := (start f).run actions
    let held := (start f).hostFormat (some f) actions
    (s.react (.pickFormat n)).choice = n ∧
      (n.format.sameMarks (s.react (.pickFormat n)).setting = true <->
        (n = s.choice -> AgreesWithHost n held)) ∧
      ((forall entry, evaluate n.format entry =
          evaluate (s.react (.pickFormat n)).setting entry) <->
        (n = s.choice -> AgreesWithHost n held)) := by
  intro s held
  have hmarks : n.format.sameMarks (s.react (.pickFormat n)).setting = true <->
      (n = s.choice -> AgreesWithHost n held) := by
    rw [sameMarks_react_pickFormat]
    refine forall_congr' fun hsame => ?_
    rw [hsame]
    exact sameMarks_setting_iff (setting_run_start f actions)
  refine ⟨choice_react_pickFormat s n, hmarks, ?_⟩
  rw [forall_evaluate_eq_iff, hmarks]

/-- The selector shows the standard format to a host without grouping marks, and picking it
leaves the decimal comma in force. -/
theorem react_pickFormat_comma :
    ((start { decimal := .comma, group := none }).react (.pickFormat .commaDot)).choice =
        .commaDot ∧
      evaluate NamedFormat.commaDot.format "1,5".toList =
        .ok (Float.ofBits 0x402E000000000000) ∧
      evaluate ((start { decimal := .comma, group := none }).react
          (.pickFormat .commaDot)).setting "1,5".toList =
        .ok (Float.ofBits 0x3FF8000000000000) := by
  decide +kernel

end Session

/-!
# Sessions that write their setting alone
-/

def NumberFormat.lineNamed (f : NumberFormat) (name : String) : String :=
  let group :=
    match f.group with
    | none => "aucun"
    | some .space => "espace"
    | some mark => mark.toChar.toString
  s!"{name}  (milliers {group}, décimal {f.decimal.toChar})"

theorem NamedFormat.label_eq_lineNamed (n : NamedFormat) :
    n.label = n.format.lineNamed n.name := by
  cases n <;> rfl

theorem Key.mem_onWindow_decimal_iff (mark inForce : DecimalMark) :
    insert (.decimal mark) ∈ onWindow inForce <-> mark = inForce := by
  cases mark <;> cases inForce <;> decide

namespace Session

theorem chosenFormat_start {f : NumberFormat} {n : NamedFormat}
    (hnamed : n.format.sameMarks f = true) : (start f).setting = (start f).chosenFormat := by
  rcases NamedFormat.exists_matching? hnamed with ⟨m, hm⟩
  rcases NumberFormat.sameMarks_iff.mp (NamedFormat.sameMarks_of_matching? hm) with
    ⟨hdecimal, hgroup⟩
  rw [start, chosenFormat, hm, Option.getD_some, hdecimal, hgroup]

theorem hostFormat_eq_none (s : Session) {actions : List Action}
    (hquiet : forall a, a ∈ actions -> a.written? = none) : s.hostFormat none actions = none := by
  induction actions generalizing s with
  | nil => rfl
  | cons a actions ih =>
      rw [List.forall_mem_cons] at hquiet
      have hstep : s.hostFormatAfter none a = none := by
        rw [hostFormatAfter, hquiet.left]
        exact ite_self none
      rw [hostFormat, hstep]
      exact ih _ hquiet.right

/-- If a session finds the marks of a named format and its host does not write the setting, then
the chosen format stays in force: the selector describes the marks in force, the decimal key
has the decimal mark of the chosen format, and entries are read with its marks. -/
theorem setting_eq_chosenFormat {f : NumberFormat} {n : NamedFormat}
    (hnamed : n.format.sameMarks f = true) {actions : List Action}
    (hquiet : forall a, a ∈ actions -> a.written? = none) :
    let s := (start f).run actions
    s.setting = { s.choice.format with hidesDecimals := s.hidesDecimals } ∧
      s.choice.label = s.setting.lineNamed s.choice.name ∧
      (forall mark, Key.insert (.decimal mark) ∈ Key.onWindow s.setting.decimal <->
        mark = s.choice.format.decimal) ∧
      forall entry, evaluate s.setting entry = evaluate s.choice.format entry := by
  intro s
  have hsetting : s.setting = s.chosenFormat := by
    have hstart : (start f).setting = (none : Option NumberFormat).getD (start f).chosenFormat :=
      chosenFormat_start hnamed
    have hrun := setting_run hstart actions
    rw [hostFormat_eq_none _ hquiet] at hrun
    exact hrun
  refine ⟨hsetting, ?_, ?_, ?_⟩
  · rw [hsetting, NamedFormat.label_eq_lineNamed]
    rfl
  · intro mark
    rw [hsetting]
    exact Key.mem_onWindow_decimal_iff mark s.choice.format.decimal
  · rw [hsetting, forall_evaluate_eq_iff]
    exact s.chosenFormat.sameMarks_refl

theorem setting_eq_chosenFormat_spaceDot :
    let found : NumberFormat :=
      { decimal := .comma, group := some .point, hidesDecimals := true }
    let actions : List Action :=
      [.gesture (.press (.insert (.digit 7))), .gesture (.pickFormat .spaceDot),
        .gesture (.press .equals), .operation (.hideDecimals false), .gesture .pressEscape]
    let s := (start found).run actions
    NamedFormat.dotComma.format.sameMarks found = true ∧
      (forall a, a ∈ actions -> a.written? = none) ∧
      s.setting = { decimal := .point, group := some .space } ∧
      s.choice.label = s.setting.lineNamed "space-dot" ∧
      (forall mark, Key.insert (.decimal mark) ∈ Key.onWindow s.setting.decimal <->
        mark = .point) ∧
      forall entry, evaluate s.setting entry = evaluate NamedFormat.spaceDot.format entry := by
  intro found actions s
  have hnamed : NamedFormat.dotComma.format.sameMarks found = true := rfl
  have hquiet : forall a, a ∈ actions -> a.written? = none := by decide
  have h := setting_eq_chosenFormat hnamed hquiet
  have hchoice : ((start found).run actions).choice = .spaceDot := by decide +kernel
  have hhides : ((start found).run actions).hidesDecimals = false := by decide +kernel
  rcases h with ⟨hsetting, hlabel, hkeys, hevaluate⟩
  rw [hchoice, hhides] at hsetting
  rw [hchoice] at hlabel hkeys hevaluate
  refine ⟨hnamed, hquiet, hsetting, ?_, hkeys, hevaluate⟩
  rw [hchoice]
  exact hlabel

end Session
end RegionalCalculator
