/-
  CommandShell.Program.Tools — a host with a few small tools.

  All tools have the same content. A tool acts on the last component of the name that it is called by. A tilde that is a
  whole component at the start of a path stands for the home directory, as long as the environment has one.
-/

import CommandShell.Program
import CommandShell.Text.Decimal

namespace CommandShell.Tools

open Program

structure Tool where
  perform : FileSystem → Job → Bytes → Performance
  readsInput : Job → Bool := fun _ => false
  reach : Bytes → Nat := List.length

def say (stream : OutStream) (text : String) : OutStream × Bytes := (stream, Bytes.ofString text)

def words (job : Job) : List Native := job.argv.tail

def line (words : List Native) : Bytes := (Path.intercalate " " words).bytes ++ [Bytes.newline]

def firstLine (data : Bytes) : Bytes := data.take ((data.takeWhile fun b => !isNewline b).length + 1)

def chunk : Nat := 8192

/-- How much is read to get the first line: whole pieces, up to the one that its newline is in. -/
def firstLineReach (data : Bytes) : Nat :=
  let line := firstLine data
  if line.getLast?.any isNewline then (line.length + chunk - 1) / chunk * chunk else data.length

def upper (b : UInt8) : UInt8 := if 97 ≤ b && b ≤ 122 then b - 32 else b

/-- The contents of the files that can be read, and complaints about the others. -/
def concatenate (fs : FileSystem) (cwd : Location) : List Native → Bytes × List (OutStream × Bytes)
  | [] => ([], [])
  | path :: rest =>
    let (data, complaints) := concatenate fs cwd rest
    match fs.read cwd false path with
    | .ok content => (content ++ data, complaints)
    | .error _ => (data, (.stderr, Bytes.ofString "cat: " ++ path.bytes ++ Bytes.ofString ": cannot read\n") :: complaints)

def number (word : Option Native) : Int := ((word.bind Native.text?).bind Text.longInteger?).getD 0

def cat : Tool where
  readsInput job := (words job).isEmpty
  perform fs job input :=
    if (words job).isEmpty then { writes := [(.stdout, input)] }
    else
      let (data, complaints) := concatenate fs job.cwd (words job)
      { writes := complaints ++ [(.stdout, data)], status := .code (if complaints.isEmpty then 0 else 1) }

def filter (f : Bytes → Bytes) : Tool where
  readsInput _ := true
  perform _ _ input := { writes := [(.stdout, f input)] }

def table : List (String × Tool) :=
  [("cat", cat),
   ("args", { perform := fun _ job _ =>
      { writes := job.argv.map fun arg => (.stdout, Bytes.ofString "[" ++ arg.bytes ++ Bytes.ofString "]\n") } }),
   ("pass", { perform := fun _ _ _ => {} }),
   ("status", { perform := fun _ job _ => { status := .code ((number (words job).head?) % 256).toNat } }),
   ("signal", { perform := fun _ job _ => { status := .signal (number (words job).head?).toNat } }),
   ("errout", { perform := fun _ job _ => { writes := [(.stderr, line (words job))] } }),
   ("both", { perform := fun _ job _ =>
      { writes := [(.stdout, Bytes.ofString "out " ++ line (words job)),
          (.stderr, Bytes.ofString "error " ++ line (words job))] } }),
   ("upper", filter (List.map upper)),
   ("count", filter fun input => Bytes.ofString s!"{input.countP isNewline} {input.length}\n"),
   ("first", { filter firstLine with reach := firstLineReach }),
   ("gen", { perform := fun _ job _ =>
      { writes := [(.stdout, (List.replicate (number (words job).head?).toNat (line (words job).tail)).flatten)] } }),
   ("cwd", { perform := fun fs job _ =>
      { writes := [say .stdout ((if (fs.node? job.cwd).isSome then job.cwd.path else "") ++ "\n")] } })]

def nameOf (job : Job) : Native := ((Path.items '/' (job.argv.headD "")).getLast?).getD ""

/-- A tool of a name that the table lacks says so. -/
def unknown : Tool where
  perform _ job _ :=
    { writes := [(.stdout, Bytes.ofString "unknown tool " ++ (nameOf job).bytes ++ [Bytes.newline])], status := .code 99 }

def ofJob (job : Job) : Tool := ((nameOf job).text?.bind fun name => table.lookup name).getD unknown

/-- The content of a tool. It is no text. -/
def content : Bytes := [0x7f, 0x45, 0x4c, 0x46, 0xff]

def programs : Programs where
  isProgram := content.isPrefixOf
  readsInput job := (ofJob job).readsInput job
  reach job := (ofJob job).reach
  perform fs job := (ofJob job).perform fs job

def expandTilde (env : Environment) (path : String) : String :=
  match path.toList, env.text? "HOME" with
  | ['~'], some home => home
  | '~' :: '/' :: rest, some home => home ++ String.ofList ('/' :: rest)
  | _, _ => path

def host : Host := { expandTilde, programs, process := 1, clock := fun _ => "" }

end CommandShell.Tools
