import ThreeAddress.Command.Options
import ThreeAddress.Compilation
import ThreeAddress.Report.Basic

/-!
# Runs of the command

What a run prints and writes, as a function of its arguments and of what the file operations it
asks for give. A program with diagnostics makes the run fail, and so does a file that cannot be
read or written.
-/

namespace ThreeAddress.Command

set_option autoImplicit false

inductive FileFault where
  | notFound
  | notDirectory
  | isDirectory
  | notText
  | other (text : String)
deriving DecidableEq

def FileFault.text : FileFault → String
  | .notFound => "No such file or directory (os error 2)"
  | .notDirectory => "Not a directory (os error 20)"
  | .isDirectory => "Is a directory (os error 21)"
  | .notText => "stream did not contain valid UTF-8"
  | .other text => text

structure Result where
  exitCode : Nat
  stdout : String
  stderr : String
  /-- The path and the content of the file that was written. -/
  written : Option (String × String)
deriving DecidableEq

def decode (content : Except FileFault ByteArray) : Except FileFault String :=
  content.bind fun bytes =>
    match String.fromUTF8? bytes with
    | some text => .ok text
    | none => .error .notText

def frame (title : String) (body : String) : String :=
  s!"=== {title} ===\n{body}=== End {title} ===\n\n"

def frame? (title : String) : Option String → String
  | some body => frame title body
  | none => ""

def notices (options : Options) (source : String) (compilation : Compilation) : String :=
  let symbols := if options.has .dumpSymbols then compilation.symbolText? else none
  let file : Report.File := ⟨options.input, source.toList⟩
  frame? "Tokens" compilation.tokenDump ++
    frame? "AST" (compilation.treeDump.map (· ++ "\n")) ++
    frame? "Symbols" symbols ++
    String.join (compilation.diagnostics.map (Report.ofDiagnostic file))

def successLine : String := "Compilation successful!\n"

/-- The end of a run whose compilation gave a listing; `write` is what writing the output file
gives. -/
def deliver (options : Options) (listing : String) (notices : String)
    (write : Except FileFault Unit) : Result :=
  let shown := if options.has .dumpCode then notices ++ frame "IR" listing else notices
  match options.output with
  | none => ⟨0, successLine ++ listing, shown, none⟩
  | some path =>
      match write with
      | .error fault =>
          ⟨1, successLine, shown ++ s!"error: cannot write {path}: {fault.text}\n", none⟩
      | .ok () =>
          let told :=
            if 0 < options.verbosity then shown ++ s!"Wrote quadruples to {path}\n" else shown
          ⟨0, successLine, told, some (path, listing)⟩

/-- The run of a compilation; `read` is what reading the input file gives. -/
def runCompile (options : Options) (read : Except FileFault ByteArray)
    (write : Except FileFault Unit) : Result :=
  match decode read with
  | .error fault => ⟨1, "", s!"error: cannot read {options.input}: {fault.text}\n", none⟩
  | .ok source =>
      let settings : Settings := ⟨options.has .dumpTokens, options.has .dumpTree⟩
      match Source.compilation settings source.toList with
      | .error rejection =>
          ⟨1, "", Report.ofRejection ⟨options.input, source.toList⟩ rejection, none⟩
      | .ok compilation =>
          let notices := notices options source compilation
          match compilation.listing? with
          | none =>
              let count := compilation.diagnostics.length
              ⟨1, "", notices ++ s!"Compilation failed with {count} error(s).\n", none⟩
          | some listing => deliver options listing notices write

def versionText : String := "msc 0.1.0\n"

def helpText : String :=
  Text.lines
    ["MiniSoft compiler: type checking and three-address code",
      "",
      "Usage: msc [OPTIONS] <INPUT>",
      "",
      "Arguments:",
      "  <INPUT>  Input source file",
      "",
      "Options:",
      "  -o, --output <OUTPUT>  Write the quadruple listing to this file instead of stdout",
      "      --dump-tokens      Dump tokens (for debugging)",
      "      --dump-ast         Dump AST (for debugging)",
      "      --dump-symbols     Dump the symbol table",
      "      --dump-ir          Dump the quadruple listing to stderr",
      "  -v, --verbose...       Verbose output (-v info, -vv debug)",
      "  -h, --help             Print help",
      "  -V, --version          Print version"]

def usageExit : Nat := 2

/-- A run with these arguments, where `read` and `write` tell what the operations on a path give. -/
def run (arguments : List String) (read : String → Except FileFault ByteArray)
    (write : String → Except FileFault Unit) : Result :=
  match Request.ofArguments arguments with
  | .error error => ⟨usageExit, "", s!"error: {error.message}\n", none⟩
  | .ok .help => ⟨0, helpText, "", none⟩
  | .ok .version => ⟨0, versionText, "", none⟩
  | .ok (.compile options) =>
      runCompile options (read options.input) (write (options.output.getD ""))

end ThreeAddress.Command
