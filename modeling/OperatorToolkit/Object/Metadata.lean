import OperatorToolkit.Encoding.GoTypes

/-!
# Object metadata

`metav1.ObjectMeta` and the types in it, with the names and the `omitempty` marks that their fields
have in JSON. The mark has no effect on `creationTimestamp`, which is a struct.
-/

namespace OperatorToolkit.Object

open Encoding

/-- `metav1.OwnerReference`. -/
structure OwnerReference where
  apiVersion : String
  kind : String
  name : String
  uid : String
  controller : Option Bool := none
  blockOwnerDeletion : Option Bool := none
  deriving DecidableEq, Repr

def ownerReferenceType : GoType OwnerReference := .struct
  (.cons "apiVersion" false stringType (by decide) <|
    .cons "blockOwnerDeletion" true boolType.pointer (by decide) <|
    .cons "controller" true boolType.pointer (by decide) <|
    .cons "kind" false stringType (by decide) <|
    .cons "name" false stringType (by decide) <|
    .cons "uid" false stringType (by decide) .nil)
  { toFun := fun ref ↦
      (ref.apiVersion, ref.blockOwnerDeletion, ref.controller, ref.kind, ref.name, ref.uid, ())
    invFun := fun (apiVersion, blockOwnerDeletion, controller, kind, name, uid, ()) ↦
      { apiVersion, blockOwnerDeletion, controller, kind, name, uid }
    left_inv := fun _ ↦ rfl
    right_inv := fun _ ↦ rfl }

/-- `metav1.ManagedFieldsEntry`. -/
structure ManagedFieldsEntry (times : Times) where
  manager : String
  operation : String
  apiVersion : String
  time : Option (Option times.Time)
  fieldsType : String
  fieldsV1 : Option Json

def managedFieldsEntryType (times : Times) : GoType (ManagedFieldsEntry times) := .struct
  (.cons "apiVersion" true stringType (by decide) <|
    .cons "fieldsType" true stringType (by decide) <|
    .cons "fieldsV1" true rawType.pointer (by decide) <|
    .cons "manager" true stringType (by decide) <|
    .cons "operation" true stringType (by decide) <|
    .cons "time" true (timeType times).pointer (by decide) .nil)
  { toFun := fun entry ↦ (entry.apiVersion, entry.fieldsType, entry.fieldsV1, entry.manager,
      entry.operation, entry.time, ())
    invFun := fun (apiVersion, fieldsType, fieldsV1, manager, operation, time, ()) ↦
      { apiVersion, fieldsType, fieldsV1, manager, operation, time }
    left_inv := fun _ ↦ rfl
    right_inv := fun _ ↦ rfl }

/-- `metav1.ObjectMeta`. -/
structure ObjectMeta (times : Times) where
  name : String
  generateName : String
  ns : String
  selfLink : String
  uid : String
  resourceVersion : String
  generation : Int
  creationTimestamp : Option times.Time
  deletionTimestamp : Option (Option times.Time)
  deletionGracePeriodSeconds : Option Int
  labels : Option (SortedMap String String)
  annotations : Option (SortedMap String String)
  ownerReferences : Option (List OwnerReference)
  finalizers : Option (List String)
  clusterName : String
  managedFields : Option (List (ManagedFieldsEntry times))

def objectMetaType (times : Times) : GoType (ObjectMeta times) := .struct
  (.cons "annotations" true stringType.map (by decide) <|
    .cons "clusterName" true stringType (by decide) <|
    .cons "creationTimestamp" true (timeType times) (by decide) <|
    .cons "deletionGracePeriodSeconds" true int64Type.pointer (by decide) <|
    .cons "deletionTimestamp" true (timeType times).pointer (by decide) <|
    .cons "finalizers" true stringType.slice (by decide) <|
    .cons "generateName" true stringType (by decide) <|
    .cons "generation" true int64Type (by decide) <|
    .cons "labels" true stringType.map (by decide) <|
    .cons "managedFields" true (managedFieldsEntryType times).slice (by decide) <|
    .cons "name" true stringType (by decide) <|
    .cons "namespace" true stringType (by decide) <|
    .cons "ownerReferences" true ownerReferenceType.slice (by decide) <|
    .cons "resourceVersion" true stringType (by decide) <|
    .cons "selfLink" true stringType (by decide) <|
    .cons "uid" true stringType (by decide) .nil)
  { toFun := fun obj ↦ (obj.annotations, obj.clusterName, obj.creationTimestamp,
      obj.deletionGracePeriodSeconds, obj.deletionTimestamp, obj.finalizers, obj.generateName,
      obj.generation, obj.labels, obj.managedFields, obj.name, obj.ns, obj.ownerReferences,
      obj.resourceVersion, obj.selfLink, obj.uid, ())
    invFun := fun (annotations, clusterName, creationTimestamp, deletionGracePeriodSeconds,
        deletionTimestamp, finalizers, generateName, generation, labels, managedFields, name, ns,
        ownerReferences, resourceVersion, selfLink, uid, ()) ↦
      { annotations, clusterName, creationTimestamp, deletionGracePeriodSeconds, deletionTimestamp,
        finalizers, generateName, generation, labels, managedFields, name, ns, ownerReferences,
        resourceVersion, selfLink, uid }
    left_inv := fun _ ↦ rfl
    right_inv := fun _ ↦ rfl }

end OperatorToolkit.Object
