import ThreeAddress.Command.Run
import ThreeAddress.Proofs.Compilation.Gating

/-!
# What a run reports

A run that compiles a file ends in one of four ways. If the content of the file does not compile,
nothing is printed and no file is written. If it does, the run says so, and shows the listing or
saves it; where it cannot be saved the run fails after all, and again no file is written.
-/

namespace ThreeAddress

set_option autoImplicit false

/-- A compilation succeeds exactly if it has a listing. -/
theorem compile_succeeded_iff (settings : Settings) (source : List Char) :
    (compile settings source).succeeded = true ↔
      ∃ listing, (compile settings source).listing? = some listing := by
  obtain ⟨ending, ends⟩ := compile_ends_in settings source
  cases ending with
  | rejected =>
      obtain ⟨_, _, _, _, _, _, _, code⟩ := ends
      simp [Compilation.succeeded, Compilation.listing?, code]
  | faulty =>
      obtain ⟨_, _, _, _, _, code⟩ := ends
      simp [Compilation.succeeded, Compilation.listing?, code]
  | generated =>
      obtain ⟨_, _, diagnostics, _, code⟩ := ends
      simp [Compilation.succeeded, Compilation.listing?, diagnostics, code]

namespace Command

theorem decode_ok (bytes : ByteArray) :
    decode (.ok bytes) = (String.fromUTF8? bytes).elim (.error .notText) .ok := by
  delta decode Except.bind
  dsimp only
  cases String.fromUTF8? bytes with
  | none => rfl
  | some text => rfl

theorem decode_of_text (source : String) : decode (.ok source.toUTF8) = .ok source := by
  have valid : source.toUTF8.IsValidUTF8 := source.isValidUTF8
  have read : String.fromUTF8? source.toUTF8 = some source := dif_pos valid
  rw [decode_ok, read]
  rfl

/-- A content is read as a text if it is the UTF-8 form of that text. -/
theorem decode_eq_ok_iff (content : Except FileFault ByteArray) (source : String) :
    decode content = .ok source ↔ content = .ok source.toUTF8 := by
  constructor
  · intro decoded
    cases content with
    | error fault => cases decoded
    | ok bytes =>
        rw [decode_ok] at decoded
        by_cases valid : bytes.IsValidUTF8
        · rw [show String.fromUTF8? bytes = _ from dif_pos valid] at decoded
          cases decoded
          rfl
        · rw [show String.fromUTF8? bytes = _ from dif_neg valid] at decoded
          cases decoded
  · rintro rfl
    exact decode_of_text source

def Options.settings (options : Options) : Settings :=
  ⟨options.has .dumpTokens, options.has .dumpTree⟩

/-- The content of the input file is a text that compiles to `listing`. -/
def Yields (options : Options) (content : Except FileFault ByteArray) (listing : String) : Prop :=
  ∃ (source : String) (compilation : Compilation), content = .ok source.toUTF8 ∧
    Source.compilation options.settings source.toList = .ok compilation ∧
    compilation.succeeded = true ∧ compilation.listing? = some listing

theorem yields_of_listed {options : Options} {source listing : String}
    (listed : (compile options.settings source.toList).listing? = some listing) :
    Yields options (.ok source.toUTF8) listing :=
  ⟨source, _, rfl, Source.compilation_eq options.settings source.toList,
    (compile_succeeded_iff options.settings source.toList).mpr ⟨listing, listed⟩, listed⟩

theorem Yields.listed {options : Options} {source listing : String}
    (yields : Yields options (.ok source.toUTF8) listing) :
    (compile options.settings source.toList).listing? = some listing := by
  obtain ⟨other, compilation, same, compiled, _, listed⟩ := yields
  have text : source = other := by
    have decoded := decode_of_text source
    rw [same, decode_of_text other] at decoded
    exact (Except.ok.inj decoded).symm
  rw [← text, Source.compilation_eq] at compiled
  cases compiled
  exact listed

/-- The ways in which a run that compiles a file can end. -/
inductive Ends (options : Options) (content : Except FileFault ByteArray)
    (write : Except FileFault Unit) (result : Result) : Prop
  | refused : (∀ listing, ¬ Yields options content listing) → result.exitCode = 1 →
      result.stdout = "" → result.written = none → Ends options content write result
  | unsaved {path listing : String} {fault : FileFault} : Yields options content listing →
      options.output = some path → write = .error fault → result.exitCode = 1 →
      result.stdout = successLine → result.written = none → Ends options content write result
  | shown {listing : String} : Yields options content listing → options.output = none →
      result.exitCode = 0 → result.stdout = successLine ++ listing → result.written = none →
      Ends options content write result
  | saved {path listing : String} : Yields options content listing → options.output = some path →
      write = .ok () → result.exitCode = 0 → result.stdout = successLine →
      result.written = some (path, listing) → Ends options content write result

theorem deliver_ends {options : Options} {content : Except FileFault ByteArray} {listing : String}
    (yields : Yields options content listing) (notices : String) (write : Except FileFault Unit) :
    Ends options content write (deliver options listing notices write) := by
  cases target : options.output with
  | none =>
      simp only [deliver, target]
      exact .shown yields target rfl rfl rfl
  | some path =>
      cases write with
      | error fault =>
          simp only [deliver, target]
          exact .unsaved yields target rfl rfl rfl rfl
      | ok _ =>
          simp only [deliver, target]
          exact .saved yields target rfl rfl rfl rfl

theorem run_compile_ends (options : Options) (content : Except FileFault ByteArray)
    (write : Except FileFault Unit) :
    Ends options content write (runCompile options content write) := by
  cases decoded : decode content with
  | error fault =>
      rw [runCompile, decoded]
      refine .refused ?_ rfl rfl rfl
      rintro listing ⟨source, _, read, _⟩
      rw [(decode_eq_ok_iff content source).mpr read] at decoded
      cases decoded
  | ok source =>
      obtain rfl := (decode_eq_ok_iff content source).mp decoded
      have compiled := Source.compilation_eq options.settings source.toList
      rw [Options.settings] at compiled
      rw [runCompile, decoded]
      simp only [compiled]
      split
      · rename_i nothing
        refine .refused ?_ rfl rfl rfl
        intro listing yields
        cases yields.listed.symm.trans nothing
      · rename_i listing listed
        exact deliver_ends (yields_of_listed listed) _ write

theorem run_of_parsed {arguments : List String} {options : Options}
    (parsed : Request.ofArguments arguments = .ok (.compile options))
    (read : String → Except FileFault ByteArray) (write : String → Except FileFault Unit) :
    run arguments read write =
      runCompile options (read options.input) (write (options.output.getD "")) := by
  rw [run, parsed]

/-- A run that fails changes no file, and it prints nothing, unless the content of the input file
compiles and only the output file cannot be written: then success has been told. A run that ends
well has read a text that compiles; it tells success and shows the listing, or writes exactly that
to the output file. -/
theorem run_reports_outcome {arguments : List String} {options : Options}
    (parsed : Request.ofArguments arguments = .ok (.compile options))
    (read : String → Except FileFault ByteArray) (write : String → Except FileFault Unit) :
    let result := run arguments read write
    (result.exitCode = 0 ∨ result.exitCode = 1) ∧
    (result.exitCode = 1 → result.written = none ∧
      (result.stdout = "" ∧ (∀ listing, ¬ Yields options (read options.input) listing) ∨
        result.stdout = "Compilation successful!\n" ∧
          (∃ listing, Yields options (read options.input) listing) ∧
          ∃ path fault, options.output = some path ∧ write path = .error fault)) ∧
    (result.exitCode = 0 → ∃ listing, Yields options (read options.input) listing ∧
      (options.output = none →
        result.stdout = "Compilation successful!\n" ++ listing ∧ result.written = none) ∧
      ∀ path, options.output = some path → write path = .ok () ∧
        result.stdout = "Compilation successful!\n" ∧ result.written = some (path, listing)) := by
  intro result
  have ends : Ends options (read options.input) (write (options.output.getD "")) result := by
    rw [show result = _ from run_of_parsed parsed read write]
    exact run_compile_ends options _ _
  cases ends with
  | refused none failed silent unwritten =>
      refine ⟨.inr failed, fun _ => ⟨unwritten, .inl ⟨silent, none⟩⟩, fun done => ?_⟩
      rw [failed] at done
      cases done
  | unsaved yields target failure failed told unwritten =>
      rw [target, Option.getD_some] at failure
      refine ⟨.inr failed, fun _ => ⟨unwritten, .inr ⟨told, ⟨_, yields⟩, _, _, target, failure⟩⟩,
        fun done => ?_⟩
      rw [failed] at done
      cases done
  | shown yields target done told unwritten =>
      refine ⟨.inl done, fun failed => ?_, fun _ => ⟨_, yields, fun _ => ⟨told, unwritten⟩, ?_⟩⟩
      · rw [done] at failed
        cases failed
      · intro path other
        rw [target] at other
        cases other
  | saved yields target success done told written =>
      rw [target, Option.getD_some] at success
      refine ⟨.inl done, fun failed => ?_, fun _ => ⟨_, yields, ?_, ?_⟩⟩
      · rw [done] at failed
        cases failed
      · intro other
        rw [target] at other
        cases other
      · intro path same
        rw [target] at same
        cases same
        exact ⟨success, told, written⟩

def storedOne : String := "let x: Int;\nx := 1;"

theorem yields_stored_one (input : String) (output : Option String) :
    Yields ⟨input, output, [], 0⟩ (.ok storedOne.toUTF8) "0: (=, 1, _, x)\n" := by
  have listed : (compile ⟨false, false⟩ storedOne.toList).listing? = some "0: (=, 1, _, x)\n" := by
    decide +kernel
  exact yields_of_listed listed

theorem run_reports_outcome_saved :
    let result := run ["-o", "out", "a.ms"] (fun _ => .ok storedOne.toUTF8) (fun _ => .ok ())
    result.exitCode = 0 ∧ result.stdout = "Compilation successful!\n" ∧
      result.written = some ("out", "0: (=, 1, _, x)\n") := by
  intro result
  have parsed : Request.ofArguments ["-o", "out", "a.ms"] =
      .ok (.compile ⟨"a.ms", some "out", [], 0⟩) := rfl
  obtain ⟨code, failing, ending⟩ := run_reports_outcome parsed (fun _ => .ok storedOne.toUTF8)
    (fun _ => .ok ())
  have yields := yields_stored_one "a.ms" (some "out")
  rcases code with done | failed
  · obtain ⟨listing, same, _, saves⟩ := ending done
    obtain ⟨_, told, written⟩ := saves "out" rfl
    have only : listing = "0: (=, 1, _, x)\n" :=
      Option.some.inj (same.listed.symm.trans yields.listed)
    rw [only] at written
    exact ⟨done, told, written⟩
  · obtain ⟨_, ⟨_, none⟩ | ⟨_, _, _, _, _, refused⟩⟩ := failing failed
    · exact absurd yields (none _)
    · cases refused

/-- Where the output file cannot be written, success has been told by a run that fails. -/
theorem unsaved_listing_told_as_success :
    Request.ofArguments ["a.ms", "-o", "nodir/out.txt"] =
        .ok (.compile ⟨"a.ms", some "nodir/out.txt", [], 0⟩) ∧
      let result := run ["a.ms", "-o", "nodir/out.txt"] (fun _ => .ok storedOne.toUTF8)
        (fun _ => .error .notFound)
      result.exitCode = 1 ∧ result.stdout = "Compilation successful!\n" ∧ result.stdout ≠ "" := by
  have parsed : Request.ofArguments ["a.ms", "-o", "nodir/out.txt"] =
      .ok (.compile ⟨"a.ms", some "nodir/out.txt", [], 0⟩) := rfl
  refine ⟨parsed, ?_⟩
  rw [run_of_parsed parsed]
  cases run_compile_ends ⟨"a.ms", some "nodir/out.txt", [], 0⟩ (.ok storedOne.toUTF8)
      (.error .notFound) with
  | refused none _ _ _ => exact absurd (yields_stored_one _ _) (none _)
  | unsaved _ _ _ failed told _ =>
      refine ⟨failed, told, ?_⟩
      rw [told]
      decide
  | shown _ target _ _ _ => cases target
  | saved _ _ success _ _ _ => cases success

end Command

end ThreeAddress
