import OperatorToolkit.Encoding.Fields
import OperatorToolkit.Webhook.Defaulter

/-!
# The defaulting functions

`AddLabels`, `AddAnnotations` and `AddClusterVersionAnnotation` put entries into a map of the
object's metadata, which they make first if there is none. An entry that the map has already is
replaced. A pipeline of them may add a key more than once, and then the last value stands. The
version of the cluster is asked for in every call, so what a pipeline adds may differ from one
request to the next, but only in that annotation.
-/

namespace OperatorToolkit.Webhook

open Encoding Object

/-! ## Objects with metadata -/

def labelsField (times : Times) : (objectMetaType times).Field "labels" true stringType.map :=
  .struct <| .later <| .later <| .later <| .later <| .later <| .later <| .later <| .later .first

def annotationsField (times : Times) :
    (objectMetaType times).Field "annotations" true stringType.map :=
  .struct .first

def namespaceField (times : Times) : (objectMetaType times).Field "namespace" true stringType :=
  .struct <| .later <| .later <| .later <| .later <| .later <| .later <| .later <| .later <|
    .later <| .later <| .later .first

/-- A Go type that has `metav1.ObjectMeta` among its fields. -/
structure MetaType (times : Times) (Obj : Type) extends ObjectType Obj where
  omitempty : Bool
  metadata : type.Field "metadata" omitempty (objectMetaType times)
  setNamespace_eq : ∀ obj ns,
    setNamespace obj ns = metadata.set obj ((namespaceField times).set (metadata.get obj) ns)
  zeroEmpty : type.ZeroEmpty

variable {times : Times} {Obj : Type}

namespace MetaType

variable (K : MetaType times Obj) (obj : Obj)

def getLabels : Option (SortedMap String String) := (K.metadata.get obj).labels

def setLabels (labels : Option (SortedMap String String)) : Obj :=
  K.metadata.set obj { K.metadata.get obj with labels := labels }

def getAnnotations : Option (SortedMap String String) := (K.metadata.get obj).annotations

def setAnnotations (annotations : Option (SortedMap String String)) : Obj :=
  K.metadata.set obj { K.metadata.get obj with annotations := annotations }

end MetaType

/-! ## The functions -/

/-- The entries are added to the map, which is made if it is nil. The keys of a map differ, so the
order in which it is ranged over does not matter. -/
def addEntries (current : Option (SortedMap String String)) (added : SortedMap String String) :
    Option (SortedMap String String) :=
  some (added.entries.foldl (fun m entry ↦ m.insert entry.1 entry.2) (current.getD .empty))

section Functions

variable (K : MetaType times Obj)

def addLabels (labels : SortedMap String String) (obj : Obj) : Obj :=
  K.setLabels obj (addEntries (K.getLabels obj) labels)

def addAnnotations (annotations : SortedMap String String) (obj : Obj) : Obj :=
  K.setAnnotations obj (addEntries (K.getAnnotations obj) annotations)

/-- `version` is what `GetClusterVersion` returns. -/
def addClusterVersionAnnotation (version : Except String String) (obj : Obj) : Obj :=
  match version with
  | .error _ => obj
  | .ok version => K.setAnnotations obj
      (some (((K.getAnnotations obj).getD .empty).insert "cluster-version" version))

end Functions

/-- A function of the package with its argument. -/
inductive DefaultFunc where
  | addLabels (labels : SortedMap String String)
  | addAnnotations (annotations : SortedMap String String)
  | addClusterVersion

/-- A call of such a function. The cluster is asked for its version in every call. -/
inductive DefaultCall where
  | addLabels (labels : SortedMap String String)
  | addAnnotations (annotations : SortedMap String String)
  | addClusterVersion (version : Except String String)

namespace DefaultCall

/-- The function that is called. -/
def func : DefaultCall → DefaultFunc
  | .addLabels labels => .addLabels labels
  | .addAnnotations annotations => .addAnnotations annotations
  | .addClusterVersion _ => .addClusterVersion

def run (K : MetaType times Obj) : DefaultCall → Obj → Obj
  | .addLabels labels => Webhook.addLabels K labels
  | .addAnnotations annotations => Webhook.addAnnotations K annotations
  | .addClusterVersion version => addClusterVersionAnnotation K version

/-- The annotations that the call adds. -/
def annotations : DefaultCall → Option (SortedMap String String)
  | .addLabels _ => none
  | .addAnnotations annotations => some annotations
  | .addClusterVersion (.error _) => none
  | .addClusterVersion (.ok version) =>
    some (SortedMap.empty.insert "cluster-version" version)

end DefaultCall

/-- The labels that every call of the function adds. -/
def DefaultFunc.labels : DefaultFunc → Option (SortedMap String String)
  | .addLabels labels => some labels
  | _ => none

/-- The annotations that every call of the function adds. -/
def DefaultFunc.annotations : DefaultFunc → Option (SortedMap String String)
  | .addAnnotations annotations => some annotations
  | _ => none

def DefaultCall.labels (call : DefaultCall) : Option (SortedMap String String) := call.func.labels

/-! ## Adding entries -/

/-- The value of the key, if there is a map and the map has it. -/
def lookupEntry (m : Option (SortedMap String String)) (key : String) : Option String :=
  (m.getD .empty).entries.lookup key

def addEach (current : Option (SortedMap String String)) (added : List (SortedMap String String)) :
    Option (SortedMap String String) :=
  added.foldl addEntries current

/-- The value that the last of the maps with this key has. -/
def lastAdded (added : List (SortedMap String String)) (key : String) : Option String :=
  added.foldr (fun m later ↦ later.or (m.entries.lookup key)) none

theorem lookup_foldl_insert {entries : List (String × String)} (hsorted : SortedKeys entries)
    (m : SortedMap String String) (key : String) :
    (entries.foldl (fun m entry ↦ m.insert entry.1 entry.2) m).entries.lookup key =
      (entries.lookup key).or (m.entries.lookup key) := by
  induction entries generalizing m with
  | nil => rfl
  | cons entry entries ih =>
    rw [List.foldl_cons, ih (sortedKeys_cons_iff.mp hsorted).2, SortedMap.insert,
      lookup_insertEntry, lookup_cons]
    split
    next heq =>
      rw [heq, hsorted.lookup_head]
      rfl
    next => rfl

theorem lookup_addEntries (current : Option (SortedMap String String))
    (added : SortedMap String String) (key : String) :
    lookupEntry (addEntries current added) key =
      (added.entries.lookup key).or (lookupEntry current key) :=
  lookup_foldl_insert added.sorted _ key

theorem lookup_addEach (current : Option (SortedMap String String))
    (added : List (SortedMap String String)) (key : String) :
    lookupEntry (addEach current added) key =
      (lastAdded added key).or (lookupEntry current key) := by
  induction added generalizing current with
  | nil => rfl
  | cons m added ih =>
    calc
      _ = (lastAdded added key).or (lookupEntry (addEntries current m) key) := ih _
      _ = (lastAdded added key).or ((m.entries.lookup key).or (lookupEntry current key)) := by
        rw [lookup_addEntries]
      _ = _ := (Option.or_assoc).symm

/-- The labels do not depend on what the cluster answers. -/
theorem filterMap_labels (calls : List DefaultCall) :
    calls.filterMap DefaultCall.labels =
      (calls.map DefaultCall.func).filterMap DefaultFunc.labels := by
  rw [List.filterMap_map]
  rfl

/-- Of the annotations, only the version of the cluster depends on what the cluster answers. -/
theorem lastAdded_annotations (calls : List DefaultCall) {key : String}
    (hkey : key ≠ "cluster-version") :
    lastAdded (calls.filterMap DefaultCall.annotations) key =
      lastAdded ((calls.map DefaultCall.func).filterMap DefaultFunc.annotations) key := by
  induction calls with
  | nil => rfl
  | cons call calls ih =>
    cases call with
    | addLabels labels => exact ih
    | addAnnotations annotations =>
      exact congrArg (fun later : Option String ↦ later.or (annotations.entries.lookup key)) ih
    | addClusterVersion version =>
      cases version with
      | error err => exact ih
      | ok version =>
        have hversion : (SortedMap.empty.insert "cluster-version" version :
            SortedMap String String).entries.lookup key = none := by
          rw [SortedMap.insert, lookup_insertEntry, if_neg hkey]
          rfl
        have hadded := congrArg
          (Option.or (lastAdded (calls.filterMap DefaultCall.annotations) key)) hversion
        exact hadded.trans (Option.or_none.trans ih)

/-! ## The pipeline -/

section Pipeline

variable (K : MetaType times Obj)

/-- The pipeline as it changes the metadata. -/
def defaultMeta (calls : List DefaultCall) (metadata : ObjectMeta times) : ObjectMeta times :=
  { metadata with
    labels := addEach metadata.labels (calls.filterMap DefaultCall.labels)
    annotations := addEach metadata.annotations (calls.filterMap DefaultCall.annotations) }

theorem DefaultCall.run_eq (call : DefaultCall) (obj : Obj) :
    call.run K obj = K.metadata.set obj (defaultMeta [call] (K.metadata.get obj)) := by
  cases call with
  | addLabels labels => rfl
  | addAnnotations annotations => rfl
  | addClusterVersion version =>
    cases version with
    | error err => exact (K.metadata.set_get obj).symm
    | ok version => rfl

theorem defaultMeta_cons (call : DefaultCall) (calls : List DefaultCall)
    (metadata : ObjectMeta times) :
    defaultMeta (call :: calls) metadata = defaultMeta calls (defaultMeta [call] metadata) := by
  unfold defaultMeta
  cases hlabels : call.labels <;> cases hannotations : call.annotations <;>
    simp [hlabels, hannotations, addEach]

theorem foldl_run (calls : List DefaultCall) (obj : Obj) :
    calls.foldl (fun obj call ↦ call.run K obj) obj =
      K.metadata.set obj (defaultMeta calls (K.metadata.get obj)) := by
  induction calls generalizing obj with
  | nil => exact (K.metadata.set_get obj).symm
  | cons call calls ih =>
    rw [List.foldl_cons, ih, call.run_eq, GoType.Field.get_set, GoType.Field.set_set,
      ← defaultMeta_cons]

theorem lookup_labels_run (calls : List DefaultCall) (obj : Obj) (key : String) :
    lookupEntry (K.getLabels (calls.foldl (fun obj call ↦ call.run K obj) obj)) key =
      (lastAdded (calls.filterMap DefaultCall.labels) key).or
        (lookupEntry (K.getLabels obj) key) := by
  rw [foldl_run, MetaType.getLabels, GoType.Field.get_set]
  exact lookup_addEach _ _ key

theorem lookup_annotations_run (calls : List DefaultCall) (obj : Obj) (key : String) :
    lookupEntry (K.getAnnotations (calls.foldl (fun obj call ↦ call.run K obj) obj)) key =
      (lastAdded (calls.filterMap DefaultCall.annotations) key).or
        (lookupEntry (K.getAnnotations obj) key) := by
  rw [foldl_run, MetaType.getAnnotations, GoType.Field.get_set]
  exact lookup_addEach _ _ key

end Pipeline

/-! ## The pipeline on objects that are the same -/

theorem readable_stringMap (m : Option (SortedMap String String)) : stringType.map.Readable m := by
  rintro m' - entry - base json ⟨⟩
  exact ⟨entry.2, rfl, rfl⟩

theorem eq_of_rel_string {value value' : Option String}
    (h : Option.Rel stringType.Same value value') : value = value' := by
  cases h with
  | none => rfl
  | some hsame =>
    cases hsame.1
    rfl

theorem lookupEntry_of_leftOut {m : Option (SortedMap String String)}
    (h : LeftOut stringType.map true m) (key : String) : lookupEntry m key = none := by
  have hempty : (m.getD .empty).entries = [] := List.isEmpty_iff.mp h
  rw [lookupEntry, hempty]
  rfl

theorem lookupEntry_of_same {m m' : Option (SortedMap String String)}
    (h : SameField stringType.map true stringType.map.Same m m') (key : String) :
    lookupEntry m key = lookupEntry m' key := by
  rcases h with ⟨hleft, hleft'⟩ | hsame
  · rw [lookupEntry_of_leftOut hleft, lookupEntry_of_leftOut hleft']
  · cases hsame with
    | none => rfl
    | some hentries => exact eq_of_rel_string (hentries key)

theorem leftOut_of_lookupEntry {m : Option (SortedMap String String)}
    (h : ∀ key, lookupEntry m key = none) : LeftOut stringType.map true m := by
  have hnil (entries : List (String × String)) (hentries : ∀ key, entries.lookup key = none) :
      entries = [] := by
    cases entries with
    | nil => rfl
    | cons entry entries => simpa using hentries entry.1
  exact List.isEmpty_iff.mpr (hnil _ h)

/-- Maps with the same entries are written in the same way, also if one of them is nil. -/
theorem same_of_lookupEntry {m m' : Option (SortedMap String String)}
    (h : ∀ key, lookupEntry m key = lookupEntry m' key) :
    SameField stringType.map true stringType.map.Same m m' := by
  cases m with
  | none =>
    exact .inl ⟨leftOut_of_lookupEntry fun _ ↦ rfl, leftOut_of_lookupEntry fun key ↦ (h key).symm⟩
  | some m =>
    cases m' with
    | none => exact .inl ⟨leftOut_of_lookupEntry h, leftOut_of_lookupEntry fun _ ↦ rfl⟩
    | some m' =>
      have hentries (key : String) : Option.Rel stringType.Same (m.entries.lookup key)
          (m'.entries.lookup key) := by
        rw [show m.entries.lookup key = m'.entries.lookup key from h key]
        cases m'.entries.lookup key with
        | none => exact .none
        | some value => exact .some ⟨rfl, rfl⟩
      exact .inr (Option.Rel.some hentries)

theorem set_defaultMeta (calls : List DefaultCall) (metadata : ObjectMeta times) :
    (annotationsField times).set
      ((labelsField times).set metadata (defaultMeta calls metadata).labels)
      (defaultMeta calls metadata).annotations = defaultMeta calls metadata := rfl

theorem set_labels_annotations (metadata : ObjectMeta times) :
    (annotationsField times).set ((labelsField times).set metadata metadata.labels)
      metadata.annotations = metadata := rfl

theorem defaultMeta_readable {metadata : ObjectMeta times}
    (h : (objectMetaType times).Readable metadata) (calls : List DefaultCall) :
    (objectMetaType times).Readable (defaultMeta calls metadata) := by
  rw [← set_defaultMeta]
  exact (annotationsField times).readable_set
    ((labelsField times).readable_set h (readable_stringMap _)) (readable_stringMap _)

/-- A struct is never left out. -/
theorem not_leftOut_metadata {metadata : ObjectMeta times} {omitempty : Bool} :
    ¬ LeftOut (objectMetaType times) omitempty metadata := by
  intro hleft
  cases (Bool.and_eq_true_iff.mp hleft).2

namespace MetaType

variable (K : MetaType times Obj)

theorem metadata_same {obj obj' : Obj} (h : K.type.Same obj obj') :
    (objectMetaType times).Same (K.metadata.get obj) (K.metadata.get obj') := by
  rcases K.metadata.same_get h with ⟨hleft, -⟩ | hsame
  · exact absurd hleft not_leftOut_metadata
  · exact hsame

/-- The object is written as before if the pipeline adds nothing to it but what it has. -/
theorem foldl_run_same {obj obj' : Obj} (h : K.type.Same obj obj') {calls : List DefaultCall}
    (hlabels : ∀ key, lookupEntry (K.getLabels obj) key =
      lookupEntry (K.getLabels (calls.foldl (fun obj call ↦ call.run K obj) obj')) key)
    (hannotations : ∀ key, lookupEntry (K.getAnnotations obj) key =
      lookupEntry (K.getAnnotations (calls.foldl (fun obj call ↦ call.run K obj) obj')) key) :
    K.type.Same obj (calls.foldl (fun obj call ↦ call.run K obj) obj') := by
  rw [foldl_run] at hlabels hannotations ⊢
  simp only [getLabels, getAnnotations, GoType.Field.get_set] at hlabels hannotations
  have hmeta := (annotationsField times).same_set
    ((labelsField times).same_set (K.metadata_same h) (same_of_lookupEntry hlabels))
    (same_of_lookupEntry hannotations)
  have hset := K.metadata.same_set h (.inr hmeta)
  rwa [set_labels_annotations, set_defaultMeta, K.metadata.set_get] at hset

theorem foldl_run_readable {obj : Obj} (h : K.type.Readable obj) (calls : List DefaultCall) :
    K.type.Readable (calls.foldl (fun obj call ↦ call.run K obj) obj) := by
  rw [foldl_run]
  exact K.metadata.readable_set h (defaultMeta_readable (K.metadata.readable_get h) calls)

end MetaType

end OperatorToolkit.Webhook
