import PoolGauge.Metrics.Storage

/-!
# Registering and filling families

Families are registered before their series are filled, and either may be refused: for a name or
an explanation that cannot stand, for a second family of one name, and for a sample that does not
have a value for each label of its family.
-/
namespace PoolGauge.Metrics

/-- Why a family or a sample is refused. -/
inductive Refusal where
  | badName (family : String)
  | noHelp
  | badLabel (label : String)
  | registeredTwice
  | cardinality (expected found : Nat)
deriving DecidableEq, Repr

def Refusal.message : Refusal → String
  | badName family => "Error: '" ++ family ++ "' is not a valid metric name"
  | noHelp => "Error: empty help string"
  | badLabel label => "Error: '" ++ label ++ "' is not a valid label name"
  | registeredTwice => "Duplicate metrics collector registration attempted"
  | cardinality expected found =>
    "Inconsistent label cardinality, expect " ++ expected.repr ++ " label values, but got " ++
      found.repr

/-- Whether a text can be the name of a label: letters, digits and underscores, no digit first. -/
def isLabelName (name : String) : Bool :=
  match name.toList with
  | [] => false
  | first :: rest => (first.isAlpha || first == '_') && rest.all fun c => c.isAlphanum || c == '_'

/-- Whether a text can be the name of a family, in which colons may stand too. -/
def isFamilyName (name : String) : Bool :=
  match name.toList with
  | [] => false
  | first :: rest =>
    (first.isAlpha || first == '_' || first == ':') &&
      rest.all fun c => c.isAlphanum || c == '_' || c == ':'

/-- Accepts the name, the explanation and the labels of a family. -/
def Family.describe {ε : Type} (family : Family ε) : Except Refusal Unit :=
  if !isFamilyName family.name then .error (.badName family.name)
  else if family.help.isEmpty then .error .noHelp
  else
    match family.labels.find? (!isLabelName ·) with
    | some label => .error (.badLabel label)
    | none => .ok ()

/-- Registers families beside those whose names are taken. -/
def register {ε : Type} (taken : List String) : List (Family ε) → Except Refusal (List String)
  | [] => .ok taken
  | family :: rest => do
    family.describe
    if family.name ∈ taken then .error .registeredTwice
    else register (family.name :: taken) rest

def Measure.arities {ε : Type} : Measure ε → ε → List Nat
  | gauge samples, source => (samples source).map (·.labels.length)
  | counter samples, source => (samples source).map (·.labels.length)

def Family.fill {ε : Type} (source : ε) (family : Family ε) : Except Refusal Unit :=
  match (family.measure.arities source).find? (· != family.labels.length) with
  | some found => .error (.cardinality family.labels.length found)
  | none => .ok ()

def storageFamilies : List (Family Inventory) :=
  datasetFamilies ++ poolFamilies

/-- Registers the families about the storage, fills them, and writes the text. -/
def encode? (inventory : Inventory) : Except Refusal String := do
  let _ ← register [] storageFamilies
  storageFamilies.forM (Family.fill inventory)
  return encode inventory

def render? (inventory : Inventory) (self : SelfMetrics) : Except Refusal String := do
  let taken ← register [] storageFamilies
  let _ ← register taken SelfMetrics.families
  storageFamilies.forM (Family.fill inventory)
  return render inventory self

end PoolGauge.Metrics
