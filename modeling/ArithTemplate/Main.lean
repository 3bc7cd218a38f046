import ArithTemplate.Command.Run

set_option autoImplicit false

/-!
The command line program: it reads the files its arguments name and prints what the command says.
-/

namespace ArithTemplate.Command

def decoded (bytes : ByteArray) : Except ReadFault Text :=
  match String.fromUTF8? bytes with
  | some text => .ok text.toList
  | none => .error .notText

def fault : IO.Error → ReadFault
  | .noFileOrDirectory .. => .missing
  | e => .other (toString e)

def readFile (path : String) : IO (Except ReadFault Text) := do
  try
    let bytes ← IO.FS.readBinFile path
    return decoded bytes
  catch e => return .error (fault e)

partial def readAll (stream : IO.FS.Stream) (bytes : ByteArray) : IO ByteArray := do
  let more ← stream.read 65536
  if more.isEmpty then return bytes else readAll stream (bytes ++ more)

def needed (arguments : List String) : List String × Bool :=
  match request arguments with
  | .ok (.render r) =>
      let files := r.inputs.filter (· != "-")
      (r.settingsFile.toList ++ r.bindingFiles ++ files, r.inputs.contains "-")
  | _ => ([], false)

end ArithTemplate.Command

open ArithTemplate Command in
def main (arguments : List String) : IO UInt32 := do
  let (paths, readsInput) := needed arguments
  let files ← paths.mapM fun path => return (path, ← readFile path)
  let standardInput ←
    if readsInput then decoded <$> readAll (← IO.getStdin) .empty else pure (.ok [])
  let file := fun path => (files.lookup path).getD (.error .missing)
  let outcome := run ⟨file, standardInput⟩ arguments
  IO.eprint (String.ofList outcome.errors)
  IO.print (String.ofList outcome.output)
  return outcome.code.toUInt32
