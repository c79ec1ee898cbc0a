import SpokenCommand.Text.Quoted
/-!
The functions that a command can name.

A command of a definitions file may name one of these twenty-eight functions, which is then run on
the words of the phrase.  A name is recognised as it is spelled, letter case included.
-/

namespace SpokenCommand

/-- A function that a command can name. -/
inductive Builtin where
  | voiceCodeMute
  | changeMode
  | exitMode
  | switchSiblingMode
  | enterExclusiveMode
  | exitExclusiveMode
  | reloadDefinitions
  | repeatAction
  | emitDictation
  | emitSpelledWord
  | emitKeys
  | emitCamelCase
  | emitPascalCase
  | emitInteger
  | mouseMove
  | mouseClick
  | mouseGrid
  | printMouseCoordinates
  | goToLine
  | changeModeNavigate
  | symbolEmit
  | emitKeyword
  | emitPrimitive
  | createNewFieldOrMethod
  | chooseOffset
  | emitStringLiteral
  | emitStringInterpolation
  | changeWindow
deriving DecidableEq, Repr

namespace Builtin

/-- The name of a function. -/
def name : Builtin → String
  | voiceCodeMute => "voice_code_mute"
  | changeMode => "change_mode"
  | exitMode => "exit_mode"
  | switchSiblingMode => "switch_sibling_mode"
  | enterExclusiveMode => "enter_exclusive_mode"
  | exitExclusiveMode => "exit_exclusive_mode"
  | reloadDefinitions => "reload_definitions"
  | repeatAction => "repeat_action"
  | emitDictation => "emit_dictation"
  | emitSpelledWord => "emit_spelled_word"
  | emitKeys => "emit_keys"
  | emitCamelCase => "emit_camel_case"
  | emitPascalCase => "emit_pascal_case"
  | emitInteger => "emit_integer"
  | mouseMove => "mouse_move"
  | mouseClick => "mouse_click"
  | mouseGrid => "mouse_grid"
  | printMouseCoordinates => "print_mouse_coordinates"
  | goToLine => "go_to_line"
  | changeModeNavigate => "change_mode_navigate"
  | symbolEmit => "symbol_emit"
  | emitKeyword => "emit_keyword"
  | emitPrimitive => "emit_primitive"
  | createNewFieldOrMethod => "create_new_field_or_method"
  | chooseOffset => "choose_offset"
  | emitStringLiteral => "emit_string_literal"
  | emitStringInterpolation => "emit_string_interpolation"
  | changeWindow => "change_window"

/-- All functions, in the alphabetical order of their names. -/
def all : List Builtin := [
  changeMode, changeModeNavigate, changeWindow, chooseOffset, createNewFieldOrMethod, emitCamelCase,
  emitDictation, emitInteger, emitKeys, emitKeyword, emitPascalCase, emitPrimitive,
  emitSpelledWord, emitStringInterpolation, emitStringLiteral, enterExclusiveMode,
  exitExclusiveMode, exitMode, goToLine, mouseClick, mouseGrid, mouseMove, printMouseCoordinates,
  reloadDefinitions, repeatAction, switchSiblingMode, symbolEmit, voiceCodeMute]

/-- The function of a name. -/
def ofName? (name : String) : Option Builtin := all.find? fun b => b.name = name

/-- A function in a log. -/
def describe (b : Builtin) : String := "Callback(" ++ Text.quoteText b.name ++ ")"

/-- All functions in a log. -/
def describeAll : String :=
  "\x7b" ++ ", ".intercalate (all.map fun b => Text.quoteText b.name) ++ "\x7d"

end Builtin

end SpokenCommand
