import Azulejo.Lib.LittleEndian
import Azulejo.Resources.IResource

/-!
# Resources in files

`ResourceSerializer` and `ResourceDeserializer`. Every operation on the file system may fail
for a reason outside the program; which ones fail, and how much of a write reaches the file,
is given with the call.
-/

namespace Azulejo

open Stateful

/-- The regular files and their contents, by the text of the path. -/
abbrev Files := Path → Option (List UInt8)

def RESOURCE_EXT : Str := ".bin".toList
def RESOURCE_TMP_EXT : Str := ".tmp".toList

/-- `resourcePath / (key + ".bin")`. -/
def resourceFile (serializationPath key : Str) : Path :=
  joinPath serializationPath (key ++ RESOURCE_EXT)

/-- `resourcePath / (key + ".tmp")`. -/
def temporaryFile (serializationPath key : Str) : Path :=
  joinPath serializationPath (key ++ RESOURCE_TMP_EXT)

/-! ## Writing -/

/-- A `std::ofstream`: the bytes that will be in its file, and its state bits. -/
structure Ofstream where
  content : List UInt8
  good : Bool

namespace Ofstream

/-- A stream that was just opened. -/
def opened : Ofstream := ⟨[], true⟩

/-- `write`. When it fails, a number of bytes gets through and `badbit` is set; a stream in a
bad state writes nothing. -/
def write (bytes : List UInt8) (fault : Option Nat) (outfile : Ofstream) : Ofstream :=
  if outfile.good then
    match fault with
    | none => { outfile with content := outfile.content ++ bytes }
    | some n => ⟨outfile.content ++ bytes.take n, false⟩
  else outfile

/-- `close`. When it fails, only a number of the buffered bytes reach the file. -/
def close (fault : Option Nat) (outfile : Ofstream) : Ofstream :=
  match fault with
  | none => outfile
  | some n => ⟨outfile.content.take n, false⟩

end Ofstream

/-- Which operations of a `Serialize` fail. -/
structure SerializeFaults where
  createDirectories : Bool
  openFile : Bool
  writeM : Option Nat
  writeN : Option Nat
  writeData : Option Nat
  close : Option Nat
  rename : Bool

/-- No operation fails. -/
def SerializeFaults.none : SerializeFaults := ⟨false, false, .none, .none, .none, .none, false⟩

/-- What `Serialize` works on: the files and the resource, whose change-tracking state it
updates. -/
structure SerializeState where
  files : Files
  resource : IResource

namespace ResourceSerializer

/-- The stream after the three writes and `close`. -/
def writeResource (faults : SerializeFaults) (resource : IResource) : Ofstream :=
  Ofstream.opened
    |>.write (LittleEndian.ofUInt64 resource.M) faults.writeM
    |>.write (LittleEndian.ofUInt64 resource.N) faults.writeN
    |>.write resource.bytes faults.writeData
    |>.close faults.close

variable (crc : List UInt8 → UInt32)

/-- `Serialize`. An empty path names no directory that could be created. The stream's state
is tested after the opening only. -/
def serialize (faults : SerializeFaults) (key serializationPath : Str) :
    EStateM Exception SerializeState Unit := do
  if key = [] then
    throw (.runtimeError "Cannot serialize resource with empty key".toList)
  if serializationPath = [] ∨ faults.createDirectories = true then
    throw (.runtimeError
      ("ResourceSerializer could not create the directory: ".toList ++ serializationPath))
  let s ← get
  let (changed, resource) := s.resource.updateChecksum crc
  set { s with resource := resource }
  if changed then do
    let tmp := temporaryFile serializationPath key
    let file := resourceFile serializationPath key
    if faults.openFile then
      throw (.runtimeError ("Could not open output file: ".toList ++ file))
    let content := (writeResource faults resource).content
    modify fun s => { s with files := Function.update s.files tmp (some content) }
    if faults.rename then
      throw (.runtimeError
        ("ResourceSerializer could .tmp file to file: ".toList ++ key ++ RESOURCE_EXT))
    modify fun s =>
      { s with files := Function.update (Function.update s.files file (some content)) tmp none }

/-- Which operations of an `Unserialize` fail. -/
structure UnserializeFaults where
  permissions : Bool
  remove : Bool

/-- `Unserialize`. -/
def unserialize (faults : UnserializeFaults) (key serializationPath : Str) :
    EStateM Exception Files Unit := do
  if key = [] then
    throw (.runtimeError "Cannot unserialize resource with empty key".toList)
  let file := resourceFile serializationPath key
  let files ← get
  if (files file).isSome then do
    if faults.permissions then
      throw (.runtimeError
        ("ResourceSerializer could not set permissions on file: ".toList ++ file))
    if faults.remove then
      throw (.runtimeError ("ResourceSerializer could not remove file: ".toList ++ file))
    set (Function.update files file none)

end ResourceSerializer

/-! ## Reading -/

namespace ResourceDeserializer

/-- `keyToResourceMap_`. -/
abbrev Registry := Str → Option ResourceClass

/-- `GenerateResource`. -/
def generateResource (registry : Registry) (key : Str) : Except Exception ResourceClass :=
  if key = [] then
    throw (.runtimeError "Key is empty when generating resource with ResourceDeserializer".toList)
  else match registry key with
    | none => throw (.runtimeError "Key is not registered with the ResourceDeserializer".toList)
    | some c => pure c

/-- What a stream throws that is read past its end. -/
def readFailure : Exception := .runtimeError "basic_ios::clear: iostream error".toList

/-- What `Deserialize` does with the new resource: `Assign` is called only when there are
bytes behind the two sizes. -/
def fillResource (M N : UInt64) (data : List UInt8) (c : ResourceClass) :
    EStateM Exception IResource Unit := do
  set (← lift (IResource.setColumnSize M (← get)))
  set (← lift (IResource.setRowSize N (← get)))
  if data ≠ [] then c.assign data

/-- `Deserialize`, with the stream throwing when it cannot read all it is asked for. -/
def deserialize (registry : Registry) (files : Files) (key deserializationPath : Str) :
    Except Exception IResource := do
  if key = [] then
    throw (.runtimeError "Key is empty when deserializing resource with ResourceDeserializer".toList)
  if deserializationPath = [] then
    throw (.runtimeError
      "Serialization path is empty when deserializaing resource with ResourceDeserializer".toList)
  let file := resourceFile deserializationPath key
  match files file with
  | none => throw (.runtimeError ("Could not open input file: ".toList ++ file))
  | some content =>
    let dataOffset := 16
    if content.length < dataOffset then throw readFailure
    let M := LittleEndian.toUInt64 (content.take 8)
    let N := LittleEndian.toUInt64 ((content.drop 8).take 8)
    let c ← generateResource registry key
    match (fillResource M N (content.drop dataOffset) c).run c.construct with
    | .error e _ => throw e
    | .ok () resource => pure resource

end ResourceDeserializer

end Azulejo
