import Xfr.Library.System
import Xfr.Output.CsvRows
import Xfr.Report.Sample

open Utf8 (Text)
open CsvOutput (TimestampFormat)

-- What a key of the terminal says. Modifiers only matter for letters.
inductive Key
  | char (c : Char) (control : Bool)
  | up
  | down
  | left
  | right
  | tab
  | enter
  | esc
  | f1
  | other
  deriving DecidableEq

namespace Protocol

def next : Protocol → Protocol
  | tcp  => udp
  | udp  => quic
  | quic => tcp

def prev : Protocol → Protocol
  | tcp  => quic
  | udp  => tcp
  | quic => udp

namespace Direction

def next : Direction → Direction
  | upload   => download
  | download => bidir
  | bidir    => upload

def prev : Direction → Direction
  | upload   => bidir
  | download => upload
  | bidir    => download

end Direction
end Protocol

namespace CsvOutput.TimestampFormat

def next : TimestampFormat → TimestampFormat
  | relative => iso8601
  | iso8601  => unix
  | unix     => relative

def prev : TimestampFormat → TimestampFormat
  | relative => unix
  | iso8601  => relative
  | unix     => iso8601

end CsvOutput.TimestampFormat

namespace Tui

def themes : List String :=
  ["default", "kawaii", "cyber", "dracula", "monochrome", "matrix", "nord", "gruvbox", "catppuccin",
    "tokyo_night", "solarized"]

inductive SettingsCategory
  | display
  | test
  deriving DecidableEq

def SettingsCategory.next : SettingsCategory → SettingsCategory
  | display => test
  | test    => display

inductive Units
  | auto
  | bits
  | bytes
  deriving DecidableEq

namespace Units

def next : Units → Units
  | auto  => bits
  | bits  => bytes
  | bytes => auto

def prev : Units → Units
  | auto  => bytes
  | bits  => auto
  | bytes => bits

end Units

-- Steps of five seconds, on multiples of five.
def durationNext (secs : Nat) : Nat :=
  min ((secs / 5 + 1) * 5) 3600

def durationPrev (secs : Nat) : Nat :=
  max ((secs - 1) / 5 * 5) 5

def BITRATE_STEPS : List (Option Nat) :=
  [none, some 1000000, some 10000000, some 100000000, some 1000000000, some 10000000000]

def bitrateIndex (current : Option Nat) : Nat :=
  let i := BITRATE_STEPS.idxOf current
  if i < BITRATE_STEPS.length then i else 0

def bitrateAt (i : Nat) : Option Nat :=
  (BITRATE_STEPS[i]?).join

def bitrateNext (current : Option Nat) : Option Nat :=
  bitrateAt ((bitrateIndex current + 1) % BITRATE_STEPS.length)

def bitratePrev (current : Option Nat) : Option Nat :=
  let i := bitrateIndex current
  bitrateAt (if i = 0 then BITRATE_STEPS.length - 1 else i - 1)

-- What a test can be restarted with.
structure TestParams where
  streams      : Nat
  protocol     : Protocol
  durationSecs : Nat
  direction    : Protocol.Direction
  bitrate      : Option Nat
  deriving DecidableEq

-- The parameters are compared to the ones of the test which runs.
structure SettingsState where
  visible               : Bool             := false
  category              : SettingsCategory := .display
  selectedIndex         : Nat              := 0
  buttonFocused         : Bool             := false
  buttonIndex           : Nat              := 0
  themeIndex            : Nat
  timestampFormat       : TimestampFormat
  units                 : Units            := .auto
  updateCheck           : Bool             := true
  updateCheckLockReason : Option Text      := none
  updateCheckTouched    : Bool             := false
  params                : TestParams
  original              : TestParams

inductive SettingsAction
  | none
  | close
  | restart
  deriving DecidableEq

namespace SettingsState

def new (themeIndex : Nat) (timestampFormat : TimestampFormat) (params : TestParams) :
    SettingsState where
  themeIndex      := themeIndex
  timestampFormat := timestampFormat
  params          := params
  original        := params

def markApplied (s : SettingsState) : SettingsState :=
  { s with original := s.params }

def toggle (s : SettingsState) : SettingsState :=
  if s.visible then { s with visible := false }
  else { s with visible := true, selectedIndex := 0, buttonFocused := false }

def close (s : SettingsState) : SettingsState :=
  { s with visible := false }

def testParamsDirty (s : SettingsState) : Bool :=
  s.params ≠ s.original

def itemsInCategory (s : SettingsState) : Nat :=
  match s.category with
  | .display => 4
  | .test    => 5

def moveUp (s : SettingsState) : SettingsState :=
  if s.buttonFocused then
    { s with buttonFocused := false, selectedIndex := s.itemsInCategory - 1 }
  else if s.selectedIndex > 0 then { s with selectedIndex := s.selectedIndex - 1 }
  else s

-- There is nothing to be applied while nothing was changed.
def focusButtons (s : SettingsState) : SettingsState :=
  { s with buttonFocused := true, buttonIndex := if s.testParamsDirty then 0 else 1 }

def moveDown (s : SettingsState) : SettingsState :=
  if s.buttonFocused then s
  else if s.selectedIndex < s.itemsInCategory - 1 then { s with selectedIndex := s.selectedIndex + 1 }
  else s.focusButtons

def switchTab (s : SettingsState) : SettingsState :=
  { s with category := s.category.next, selectedIndex := 0, buttonFocused := false }

def toggleUpdateCheck (s : SettingsState) : SettingsState :=
  if s.updateCheckLockReason.isSome then s
  else { s with updateCheck := !s.updateCheck, updateCheckTouched := true }

def setParams (s : SettingsState) (params : TestParams) : SettingsState :=
  { s with params }

def valueNext (s : SettingsState) : SettingsState :=
  if s.buttonFocused then
    if s.testParamsDirty then { s with buttonIndex := (s.buttonIndex + 1) % 2 } else s
  else
    match s.category, s.selectedIndex with
    | .display, 0 => { s with themeIndex := (s.themeIndex + 1) % themes.length }
    | .display, 1 => { s with timestampFormat := s.timestampFormat.next }
    | .display, 2 => { s with units := s.units.next }
    | .display, 3 => s.toggleUpdateCheck
    | .test,    0 => s.setParams { s.params with streams := min (s.params.streams + 1) 128 }
    | .test,    1 => s.setParams { s.params with protocol := s.params.protocol.next }
    | .test,    2 => s.setParams { s.params with durationSecs := durationNext s.params.durationSecs }
    | .test,    3 => s.setParams { s.params with direction := s.params.direction.next }
    | .test,    4 => s.setParams { s.params with bitrate := bitrateNext s.params.bitrate }
    | _,        _ => s

def valuePrev (s : SettingsState) : SettingsState :=
  if s.buttonFocused then
    if s.testParamsDirty then { s with buttonIndex := if s.buttonIndex = 0 then 1 else 0 } else s
  else
    match s.category, s.selectedIndex with
    | .display, 0 =>
      { s with themeIndex := if s.themeIndex = 0 then themes.length - 1 else s.themeIndex - 1 }
    | .display, 1 => { s with timestampFormat := s.timestampFormat.prev }
    | .display, 2 => { s with units := s.units.prev }
    | .display, 3 => s.toggleUpdateCheck
    | .test,    0 => s.setParams { s.params with streams := max (s.params.streams - 1) 1 }
    | .test,    1 => s.setParams { s.params with protocol := s.params.protocol.prev }
    | .test,    2 => s.setParams { s.params with durationSecs := durationPrev s.params.durationSecs }
    | .test,    3 => s.setParams { s.params with direction := s.params.direction.prev }
    | .test,    4 => s.setParams { s.params with bitrate := bitratePrev s.params.bitrate }
    | _,        _ => s

def onEnter (s : SettingsState) : SettingsState × SettingsAction :=
  if ¬s.buttonFocused then (s.focusButtons, .none)
  else
    match s.buttonIndex with
    | 0 => (s.close, if s.testParamsDirty then .restart else .close)
    | 1 => (s.close, .close)
    | _ => (s, .none)

-- The keys while the settings are open.
def handleKey (s : SettingsState) : Key → SettingsState × SettingsAction
  | .esc | .char 's' _   => (s.close, .close)
  | .up | .char 'k' _    => (s.moveUp, .none)
  | .down | .char 'j' _  => (s.moveDown, .none)
  | .left | .char 'h' _  => (s.valuePrev, .none)
  | .right | .char 'l' _ => (s.valueNext, .none)
  | .tab                 => (s.switchTab, .none)
  | .enter               => s.onEnter
  | _                    => (s, .none)

variable {s s' : SettingsState} {k : Key} {action : SettingsAction} {n : Nat}

-- What can be chosen, and what a test can be run with.
structure Sound (s : SettingsState) : Prop where
  selected : s.selectedIndex < s.itemsInCategory
  button   : s.buttonIndex < 2
  theme    : s.themeIndex < themes.length
  streams  : 1 ≤ s.params.streams ∧ s.params.streams ≤ 128

-- What a key leaves as it was, and when it restarts the test.
structure Handled (s : SettingsState) (s' : SettingsState) (action : SettingsAction) : Prop where
  sound    : s'.Sound
  original : s'.original = s.original
  locked   : s.updateCheckLockReason.isSome → s'.updateCheck = s.updateCheck
  restarts : action = .restart → s'.params = s.params ∧ s.params ≠ s.original ∧ ¬s'.visible
  closed   : action ≠ .none → ¬s'.visible

theorem handled_quiet (hs : s.Sound) (ho : s'.original = s.original) (hp : s'.params = s.params)
    (hl : s.updateCheckLockReason.isSome → s'.updateCheck = s.updateCheck)
    (hi : s'.selectedIndex < s'.itemsInCategory) (hb : s'.buttonIndex < 2)
    (ht : s'.themeIndex < themes.length) : Handled s s' .none where
  sound    := ⟨hi, hb, ht, hp ▸ hs.streams⟩
  original := ho
  locked   := hl
  restarts := nofun
  closed   := fun h => absurd rfl h

theorem handled_params {params : TestParams} (hs : s.Sound)
    (h : 1 ≤ params.streams ∧ params.streams ≤ 128) : Handled s (s.setParams params) .none where
  sound    := ⟨hs.selected, hs.button, hs.theme, h⟩
  original := rfl
  locked   := fun _ => rfl
  restarts := nofun
  closed   := fun h => absurd rfl h

theorem handled_self (hs : s.Sound) : Handled s s .none :=
  handled_quiet hs rfl rfl (fun _ => rfl) hs.selected hs.button hs.theme

theorem handled_toggleUpdateCheck (hs : s.Sound) : Handled s s.toggleUpdateCheck .none := by
  unfold toggleUpdateCheck
  split
  case isTrue  => exact handled_self hs
  case isFalse h =>
    exact handled_quiet hs rfl rfl (fun hl => absurd hl h) hs.selected hs.button hs.theme

theorem handled_focusButtons (hs : s.Sound) : Handled s s.focusButtons .none := by
  refine handled_quiet hs rfl rfl (fun _ => rfl) hs.selected ?_ hs.theme
  unfold focusButtons
  dsimp only
  split <;> decide

theorem handled_moveUp (hs : s.Sound) : Handled s s.moveUp .none := by
  unfold moveUp
  split
  case isTrue =>
    refine handled_quiet hs rfl rfl (fun _ => rfl) ?_ hs.button hs.theme
    exact Nat.sub_lt (Nat.zero_lt_of_lt hs.selected) Nat.one_pos
  case isFalse =>
    split
    case isTrue  =>
      exact handled_quiet hs rfl rfl (fun _ => rfl) (Nat.sub_lt_of_lt hs.selected) hs.button hs.theme
    case isFalse => exact handled_self hs

theorem handled_moveDown (hs : s.Sound) : Handled s s.moveDown .none := by
  unfold moveDown
  split
  case isTrue  => exact handled_self hs
  case isFalse =>
    split
    case isTrue h =>
      exact handled_quiet hs rfl rfl (fun _ => rfl) (Nat.add_lt_of_lt_sub h) hs.button hs.theme
    case isFalse  => exact handled_focusButtons hs

theorem handled_switchTab (hs : s.Sound) : Handled s s.switchTab .none := by
  refine handled_quiet hs rfl rfl (fun _ => rfl) ?_ hs.button hs.theme
  unfold switchTab itemsInCategory
  dsimp only
  split <;> decide

theorem handled_valueNext (hs : s.Sound) : Handled s s.valueNext .none := by
  have ⟨hs₁, hs₂⟩ := hs.streams
  unfold valueNext
  split
  case isTrue =>
    split
    case isTrue  =>
      exact handled_quiet hs rfl rfl (fun _ => rfl) hs.selected (Nat.mod_lt _ (by decide)) hs.theme
    case isFalse => exact handled_self hs
  case isFalse =>
    split
    case h_1 =>
      exact handled_quiet hs rfl rfl (fun _ => rfl) hs.selected hs.button (Nat.mod_lt _ (by decide))
    case h_2 | h_3 =>
      exact handled_quiet hs rfl rfl (fun _ => rfl) hs.selected hs.button hs.theme
    case h_4 => exact handled_toggleUpdateCheck hs
    case h_5 => exact handled_params hs ⟨by dsimp only; omega, by dsimp only; omega⟩
    case h_6 | h_7 | h_8 | h_9 => exact handled_params hs hs.streams
    case h_10 => exact handled_self hs

theorem handled_valuePrev (hs : s.Sound) : Handled s s.valuePrev .none := by
  have ⟨hs₁, hs₂⟩ := hs.streams
  unfold valuePrev
  split
  case isTrue =>
    split
    case isTrue  =>
      refine handled_quiet hs rfl rfl (fun _ => rfl) hs.selected ?_ hs.theme
      dsimp only
      split <;> decide
    case isFalse => exact handled_self hs
  case isFalse =>
    split
    case h_1 =>
      refine handled_quiet hs rfl rfl (fun _ => rfl) hs.selected hs.button ?_
      dsimp only
      split
      case isTrue  => decide
      case isFalse => exact Nat.sub_lt_of_lt hs.theme
    case h_2 | h_3 =>
      exact handled_quiet hs rfl rfl (fun _ => rfl) hs.selected hs.button hs.theme
    case h_4 => exact handled_toggleUpdateCheck hs
    case h_5 => exact handled_params hs ⟨by dsimp only; omega, by dsimp only; omega⟩
    case h_6 | h_7 | h_8 | h_9 => exact handled_params hs hs.streams
    case h_10 => exact handled_self hs

theorem handled_close (hs : s.Sound) (hr : action = .restart → s.testParamsDirty) :
    Handled s s.close action where
  sound    := ⟨hs.selected, hs.button, hs.theme, hs.streams⟩
  original := rfl
  locked   := fun _ => rfl
  restarts := fun h => ⟨rfl, of_decide_eq_true (hr h), nofun⟩
  closed   := fun _ => nofun

theorem handled_onEnter (hs : s.Sound) : Handled s s.onEnter.1 s.onEnter.2 := by
  unfold onEnter
  split
  case isTrue  => exact handled_focusButtons hs
  case isFalse =>
    split
    case h_1 =>
      refine handled_close hs fun h => ?_
      by_contra hd
      simp [hd] at h
    case h_2 => exact handled_close hs nofun
    case h_3 => exact handled_self hs

-- Whatever is pressed in the settings.
theorem handled_handleKey (hs : s.Sound) (k : Key) :
    Handled s (s.handleKey k).1 (s.handleKey k).2 := by
  unfold handleKey
  split
  case h_1 | h_2   => exact handled_close hs nofun
  case h_3 | h_4   => exact handled_moveUp hs
  case h_5 | h_6   => exact handled_moveDown hs
  case h_7 | h_8   => exact handled_valuePrev hs
  case h_9 | h_10  => exact handled_valueNext hs
  case h_11        => exact handled_switchTab hs
  case h_12        => exact handled_onEnter hs
  case h_13        => exact handled_self hs

theorem Sound.close (hs : s.Sound) : s.close.Sound :=
  ⟨hs.selected, hs.button, hs.theme, hs.streams⟩

theorem Sound.markApplied (hs : s.Sound) : s.markApplied.Sound :=
  ⟨hs.selected, hs.button, hs.theme, hs.streams⟩

theorem original_toggle : s.toggle.original = s.original := by
  unfold SettingsState.toggle
  split <;> rfl

theorem Sound.toggle (hs : s.Sound) : s.toggle.Sound := by
  unfold SettingsState.toggle
  split
  case isTrue  => exact ⟨hs.selected, hs.button, hs.theme, hs.streams⟩
  case isFalse => exact ⟨Nat.zero_lt_of_lt hs.selected, hs.button, hs.theme, hs.streams⟩

end SettingsState
end Tui
