import BytecodeBench.Fault
import BytecodeBench.Table
import BytecodeBench.Text.Basic
import BytecodeBench.Text.Quoted
import BytecodeBench.Text.Similarity

/-!
Options on a command line. An option may be spelt in several ways; options of one letter can share a
word, and the value of an option is the rest of its word or the word after it. Two dashes end the
options.
-/

namespace BytecodeBench.CommandLine

inductive OptionUse
  /-- It takes a value. -/
  | value
  /-- It sets a switch. -/
  | switch (on : Bool)
  deriving DecidableEq, Repr

structure Spelling where
  text : String
  key : String
  use : OptionUse
  deriving DecidableEq, Repr

inductive Setting
  | text (s : String)
  | switch (on : Bool)
  deriving DecidableEq, Repr

/-- What a command line gives: settings by option in their order, and the other words. -/
structure Given where
  settings : List (String × Setting) := []
  words : List String := []
  deriving DecidableEq, Repr

/-- What a word with options says: it is complete, or its last option waits for a value. -/
inductive OptionWord
  | complete (settings : List (String × Setting))
  | waiting (settings : List (String × Setting)) (spelling : Spelling)

/-- Whether a spelling is a dash and one letter. -/
def Spelling.isShort (spelling : Spelling) : Bool := spelling.text.length == 2

def noSuchOption (text : String) : Fault := .badUsage ("No such option: " ++ text)

/-- An unknown long option, with the known ones that are like it. -/
def noSuchLongOption (spellings : List Spelling) (text : String) : Fault :=
  let known := (spellings.filter (!·.isShort)).map (·.text)
  match Text.closeMatches text known with
  | [] => noSuchOption text
  | [one] => .badUsage ("No such option: " ++ text ++ " Did you mean " ++ one ++ "?")
  | several =>
    .badUsage ("No such option: " ++ text ++ " (Possible options: " ++ Text.join ", " several ++ ")")

/-- Options of one letter that share a word. -/
def readLetters (spellings : List Spelling) (before : List (String × Setting)) :
    List Char → Except Fault OptionWord
  | [] => .ok (.complete before)
  | c :: rest =>
    let text := String.ofList ['-', c]
    match spellings.find? (·.text == text) with
    | none => .error (noSuchOption text)
    | some spelling =>
      match spelling.use, rest with
      | .switch on, rest => readLetters spellings (before ++ [(spelling.key, .switch on)]) rest
      | .value, [] => .ok (.waiting before spelling)
      | .value, rest => .ok (.complete (before ++ [(spelling.key, .text (String.ofList rest))]))

/-- A word that starts with a dash. -/
def readOptionWord (spellings : List Spelling) (word : String) : Except Fault OptionWord :=
  let name := String.ofList (word.toList.takeWhile (· ≠ '='))
  let attached := word.toList.dropWhile (· ≠ '=')
  match spellings.find? fun spelling => !spelling.isShort && spelling.text == name with
  | some spelling =>
    match spelling.use, attached with
    | .switch on, [] => .ok (.complete [(spelling.key, .switch on)])
    | .switch _, _ => .error (.badUsage ("Option " ++ Text.quoted name ++ " does not take a value."))
    | .value, [] => .ok (.waiting [] spelling)
    | .value, _ :: value => .ok (.complete [(spelling.key, .text (String.ofList value))])
  | none =>
    if Text.startsWith word "--" then .error (noSuchLongOption spellings name)
    else readLetters spellings [] word.toList.tail

def isOptionWord (word : String) : Bool := Text.startsWith word "-" && word.length > 1

/--
Reads a command line. Unless options may come between other words, the first other word ends them.
-/
def readOptions (spellings : List Spelling) (mixed : Bool) : List String → Except Fault Given
  | [] => .ok {}
  | word :: rest =>
    if word = "--" then .ok { words := rest }
    else if isOptionWord word then do
      match ← readOptionWord spellings word with
      | .complete settings =>
        let given ← readOptions spellings mixed rest
        return { given with settings := settings ++ given.settings }
      | .waiting settings spelling =>
        match rest with
        | [] => throw (.badUsage ("Option " ++ Text.quoted spelling.text ++ " requires an argument."))
        | value :: rest =>
          let given ← readOptions spellings mixed rest
          return { given with
            settings := settings ++ (spelling.key, .text value) :: given.settings }
    else if mixed then do
      let given ← readOptions spellings mixed rest
      return { given with words := word :: given.words }
    else .ok { words := word :: rest }

namespace Given

def setting? (given : Given) (key : String) : Option Setting :=
  (given.settings.filter (·.1 == key)).getLast?.map (·.2)

def text? (given : Given) (key : String) : Option String :=
  match given.setting? key with
  | some (.text s) => some s
  | _ => none

/-- Where a switch was put. -/
def switch? (given : Given) (key : String) : Option Bool :=
  match given.setting? key with
  | some (.switch on) => some on
  | _ => none

def count (given : Given) (key : String) : Nat := given.settings.countP (·.1 == key)

/-- Checks the value of each option once, in the order in which the options first came. -/
def check (given : Given) (test : String → String → Except Fault Unit) : Except Fault Unit :=
  (given.settings.map (·.1)).eraseDups.forM fun key =>
    match given.text? key with
    | some value => test key value
    | none => .ok ()

/-- Refuses words beyond the given number. -/
def limitWords (given : Given) (count : Nat) : Except Fault Unit :=
  match given.words.drop count with
  | [] => .ok ()
  | [word] => .error (.badUsage ("Got unexpected extra argument (" ++ word ++ ")"))
  | words =>
    .error (.badUsage ("Got unexpected extra arguments (" ++ Text.join " " words ++ ")"))

end Given

end BytecodeBench.CommandLine
