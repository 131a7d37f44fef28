import MediaSender.Text.Blank
import MediaSender.Text.Quoted
import MediaSender.Text.Split

/-! # Field trials

Experiment settings as text: a sequence of groups `Key/Value/`, neither part empty.  The value of
a group is for its consumer to read; when a key is repeated the first value counts. -/

namespace MediaSender

/-- What is wrong with a trial text, or with a parameter in it. -/
inductive TrialError where
  /-- A key or value that no slash ends. -/
  | missingSeparator (rest : String)
  | emptyKey
  | emptyValue (key : String)
  /-- A parameter without a colon. -/
  | malformedParameter (entry : String)
  | invalidValue (key value : String)
  | unknownParameter (key : String)
deriving DecidableEq, Repr

/-- The text of an error. -/
def TrialError.message : TrialError → String
  | .missingSeparator rest => "field trial: missing '/' separator in " ++ Text.quoted rest
  | .emptyKey => "field trial: empty key"
  | .emptyValue key => "field trial: empty value for key " ++ key
  | .malformedParameter entry =>
    "field trial: malformed parameter " ++ Text.quoted entry ++ ", expected Key:Value"
  | .invalidValue key value =>
    "field trial: invalid value " ++ Text.quoted value ++ " for " ++ key
  | .unknownParameter key => "field trial: unknown parameter " ++ key

/-- Trial groups; of two with one key the first counts. -/
structure Trials where
  groups : List (String × String) := []
deriving DecidableEq

namespace Trials

instance : Inhabited Trials := ⟨{}⟩

/-- The groups of a text, in order. -/
def groups? (cs : List Char) : Except TrialError (List (String × String)) :=
  if cs.isEmpty then .ok []
  else
    match hk : Text.splitOnce '/' cs with
    | none => .error (.missingSeparator (String.ofList cs))
    | some (key, afterKey) =>
      if key.isEmpty then .error .emptyKey
      else
        match hv : Text.splitOnce '/' afterKey with
        | none => .error (.missingSeparator (String.ofList afterKey))
        | some (value, rest) =>
          if value.isEmpty then .error (.emptyValue (String.ofList key))
          else
            have : rest.length < cs.length :=
              Nat.lt_trans (Text.length_of_splitOnce hv) (Text.length_of_splitOnce hk)
            (groups? rest).map ((String.ofList key, String.ofList value) :: ·)
termination_by cs.length

/-- The trials that a text sets. -/
def parse (s : String) : Except TrialError Trials := (groups? s.toList).map fun gs => ⟨gs⟩

/-- The value of `key`, empty if it is not set. -/
def lookup (t : Trials) (key : String) : String :=
  match t.groups.find? (·.1 == key) with
  | some g => g.2
  | none => ""

/-- Set or replace the value of `key`. -/
def set (t : Trials) (key value : String) : Trials := ⟨(key, value) :: t.groups⟩

@[simp] theorem lookup_set_self (t : Trials) (key value : String) :
    (t.set key value).lookup key = value := by simp [lookup, set]

theorem lookup_set_of_ne (t : Trials) {key other : String} (value : String) (h : other ≠ key) :
    (t.set key value).lookup other = t.lookup other := by simp [lookup, set, Ne.symm h]

/-- Whether the value of `key` starts with the word. -/
def startsWith (t : Trials) (key word : String) : Bool :=
  word.toList.isPrefixOf (t.lookup key).toList

/-- Whether the group asks to enable its feature. -/
def isEnabled (t : Trials) (key : String) : Bool := t.startsWith key "Enabled"

/-- Whether the group asks to disable its feature. -/
def isDisabled (t : Trials) (key : String) : Bool := t.startsWith key "Disabled"

/-! ### Parameters of a group -/

/-- One `Key:Value` entry of a group. -/
def parameter? (entry : List Char) : Except TrialError (String × String) :=
  match Text.splitOnce ':' entry with
  | some (key, value) => .ok (String.ofList (Text.trim key), String.ofList (Text.trim value))
  | none => .error (.malformedParameter (String.ofList entry))

/-- The comma separated entries of a group's value, blank ones left out. -/
def parameters (group : String) : List (Except TrialError (String × String)) :=
  (((Text.pieces ',' group.toList).map Text.trim).filter fun entry => !entry.isEmpty).map parameter?

end Trials

end MediaSender
