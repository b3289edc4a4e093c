import Mathlib.Data.List.DropRight
import TonEncoder.Codec.Base64
import TonEncoder.Codec.Raising
import TonEncoder.Request

/-! # `run_tests.py`

The test harness. For each test block it runs the solution twice, to compress the
block and to decompress what came out, and gives points for a block that comes
back. Texts are lists of characters, which the harness reads from the bytes of a
solution in the encoding of the locale; an exception that nothing catches ends the
script.

* `runTest` is the verdict on one block and `runTests` the script over the blocks;
* `runTest_passed` is what a pass says about the two runs;
* `runTests_account`: the script ends with the first exception, and otherwise counts
  the passes and adds their points;
* `exists_verdict`: a solution that prints ASCII raises none;
* `iteration_of_runsRoundTrip`: a solution passes where its runs make the round trip
  within the limit.
-/

namespace TonEncoder.RunTests

open Process Raising

/-! ## Texts -/

abbrev Text := List Char

/-- The character of an ASCII byte. -/
def charOf (b : UInt8) : Char := Char.ofNat b.toNat

def textOf (s : Bytes) : Text := s.map charOf

/-- The encoding of the locale, which extends ASCII: the text of some bytes, unless
they are malformed. -/
structure LocaleEncoding where
  decode : Bytes → Option Text
  decode_ascii : ∀ s, (∀ b ∈ s, b < 128) → decode s = some (textOf s)

/-- `s.encode('ascii')` -/
def encodeAscii (s : Text) : Option Bytes :=
  if s.all (·.toNat < 128) then some (s.map fun c => UInt8.ofNat c.toNat) else none

/-- The newlines of a text that `subprocess` reads are all line feeds. -/
def translateNewlines : Text → Text
  | '\r' :: '\n' :: rest => '\n' :: translateNewlines rest
  | '\r' :: rest => '\n' :: translateNewlines rest
  | c :: rest => c :: translateNewlines rest
  | [] => []

/-- The white space that `str.strip` removes. -/
def isStripped (c : Char) : Bool :=
  let n := c.toNat
  (9 ≤ n && n ≤ 13) || (28 ≤ n && n ≤ 32) || n == 0x85 || n == 0xa0 || n == 0x1680 ||
    (0x2000 ≤ n && n ≤ 0x200a) || n == 0x2028 || n == 0x2029 || n == 0x202f || n == 0x205f ||
    n == 0x3000

/-- `str.strip` -/
def strip (s : Text) : Text := (s.dropWhile isStripped).rdropWhile isStripped

/-! ## Base64 in strict mode -/

/-- What `binascii.a2b_base64` keeps between characters. -/
structure Quad where
  quadPos : Nat
  leftchar : Nat
  pads : Nat
  paddingStarted : Bool
deriving DecidableEq, Repr

/-- The loop of `binascii.a2b_base64` in strict mode. -/
def a2bLoop (quad : Quad) : Bytes → Option Bytes
  | [] => if quad.quadPos = 0 then some [] else none
  | ch :: rest =>
      if ch = Base64.pad then
        if quad.quadPos < 2 then
          -- padding that completes nothing is skipped
          a2bLoop { quad with paddingStarted := true } rest
        else if quad.quadPos + (quad.pads + 1) < 4 then
          a2bLoop { quad with pads := quad.pads + 1, paddingStarted := true } rest
        else if rest = [] then some []
        else none
      else match Base64.decodeDigit ch with
        | none => none
        | some digit =>
            if quad.paddingStarted then none
            else match quad.quadPos with
              | 0 => a2bLoop ⟨1, digit, 0, false⟩ rest
              | 1 => (a2bLoop ⟨2, digit % 16, 0, false⟩ rest).map
                  (UInt8.ofNat (quad.leftchar * 4 + digit / 16) :: ·)
              | 2 => (a2bLoop ⟨3, digit % 4, 0, false⟩ rest).map
                  (UInt8.ofNat (quad.leftchar * 16 + digit / 4) :: ·)
              | _ => (a2bLoop ⟨0, 0, 0, false⟩ rest).map
                  (UInt8.ofNat (quad.leftchar * 64 + digit) :: ·)

/-- `binascii.a2b_base64` in strict mode, which refuses leading padding. -/
def a2bBase64 (s : Bytes) : Option Bytes :=
  if s.head? = some Base64.pad then none else a2bLoop ⟨0, 0, 0, false⟩ s

/-! ## The harness -/

/-- The exceptions that end the script. -/
inductive Raised where
  | systemExit (code : Nat)
  | assertionError
  | valueError
  | unicodeDecodeError
  | zeroDivisionError
deriving DecidableEq, Repr

/-- The limit on blocks and on outputs. -/
def maxSize : Nat := 2 ^ 21

/-- `get_base64_size`: the size of what a text decodes to. Of the errors of
`b64decode` it catches those of `binascii`, but a text which is not ASCII is another
one. -/
def getBase64Size (s : Text) : Except Raised (Option Nat) :=
  match encodeAscii s with
  | none => .error .valueError
  | some bytes => .ok ((a2bBase64 bytes).map List.length)

/-- A run of a solution under a time limit: no report when the time is over. -/
abbrev Solution := Bytes → Option Report

/-- Why a run has no result. -/
inductive Failure where
  | timeLimit
  | runtimeError (exit : Exit)
deriving DecidableEq, Repr

/-- The verdict on a test block. -/
inductive Verdict where
  | compressionFailed (failure : Failure)
  | invalidBase64
  | tooBigOutput (size : Nat)
  | decompressionFailed (failure : Failure)
  | wrongAnswer
  | passed (points : ℚ)
deriving DecidableEq

/-- The input of a run. The text of a block has been read as base64 by then, so that it
is ASCII. -/
def inputOf (mode : String) (block : Text) : Bytes :=
  request (ascii mode) (block.map fun c => UInt8.ofNat c.toNat)

/-- `subprocess.run`, the check of the exit code and `stdout.strip()`. The output is
decoded first. -/
def runProcess (locale : LocaleEncoding) (solution : Solution) (input : Bytes) :
    Except Raised (Except Failure Text) :=
  match solution input with
  | none => .ok (.error .timeLimit)
  | some result =>
      match locale.decode result.stdout with
      | none => .error .unicodeDecodeError
      | some out =>
          if result.exit ≠ .success then .ok (.error (.runtimeError result.exit))
          else .ok (.ok (strip (translateNewlines out)))

/-- The points for a block that came back. -/
def points (originalSize compressedSize : Nat) : ℚ :=
  1000 * (2 * originalSize) / (originalSize + compressedSize)

/-- The body of the loop, for a block of `originalSize` bytes. -/
def runTest (locale : LocaleEncoding) (solution : Solution) (originalBlock : Text)
    (originalSize : Nat) : Except Raised Verdict := do
  match ← runProcess locale solution (inputOf "compress" originalBlock) with
  | .error failure => return .compressionFailed failure
  | .ok compressedBlock =>
      match ← getBase64Size compressedBlock with
      | none => return .invalidBase64
      | some compressedSize =>
          if compressedSize > maxSize then return .tooBigOutput compressedSize
          else match ← runProcess locale solution (inputOf "decompress" compressedBlock) with
            | .error failure => return .decompressionFailed failure
            | .ok decompressedBlock =>
                if decompressedBlock ≠ originalBlock then return .wrongAnswer
                else if originalSize + compressedSize = 0 then throw .zeroDivisionError
                else return .passed (points originalSize compressedSize)

/-- The iteration for a test block, with the assertions about it. -/
def iteration (locale : LocaleEncoding) (solution : Solution) (originalBlock : Text) :
    Except Raised Verdict := do
  match ← getBase64Size originalBlock with
  | none => throw .assertionError
  | some originalSize =>
      if originalSize ≤ maxSize then runTest locale solution originalBlock originalSize
      else throw .assertionError

/-- The totals of the loop. -/
structure Totals where
  nOk : Nat
  totalPoints : ℚ
deriving DecidableEq

/-- A pass is counted and its points are added. -/
def Totals.add (totals : Totals) : Verdict → Totals
  | .passed points => ⟨totals.nOk + 1, totals.totalPoints + points⟩
  | _ => totals

def step (locale : LocaleEncoding) (solution : Solution) (totals : Totals)
    (originalBlock : Text) : Except Raised Totals := do
  return totals.add (← iteration locale solution originalBlock)

/-- The script, on the blocks of its test files. -/
def runTests (locale : LocaleEncoding) (solution : Solution) (blocks : List Text) :
    Except Raised Totals :=
  if blocks.length = 0 then .error (.systemExit 2)
  else blocks.foldlM (step locale solution) ⟨0, 0⟩

/-! ## ASCII texts -/

theorem toNat_charOf {b : UInt8} (h : b < 128) : (charOf b).toNat = b.toNat := by
  have hlt : b.toNat < 128 := by simpa [UInt8.lt_iff_toNat_lt] using h
  have hvalid : b.toNat.isValidChar := Or.inl (by omega)
  rw [charOf, Char.ofNat, dif_pos hvalid]
  rfl

/-- A text of ASCII characters. -/
def IsAscii (s : Text) : Prop := ∀ c ∈ s, c.toNat < 128

theorem isAscii_textOf {s : Bytes} (h : ∀ b ∈ s, b < 128) : IsAscii (textOf s) := by
  intro c hc
  rcases List.mem_map.mp hc with ⟨b, hb, rfl⟩
  have hlt := h b hb
  rw [toNat_charOf hlt]
  simpa [UInt8.lt_iff_toNat_lt] using hlt

/-- The bytes of the text of ASCII bytes. -/
theorem map_textOf {s : Bytes} (h : ∀ b ∈ s, b < 128) :
    (textOf s).map (fun c => UInt8.ofNat c.toNat) = s := by
  rw [textOf, List.map_map]
  conv_rhs => rw [← List.map_id s]
  apply List.map_congr_left
  intro b hb
  simp [toNat_charOf (h b hb)]

theorem IsAscii.encodeAscii {s : Text} (h : IsAscii s) :
    encodeAscii s = some (s.map fun c => UInt8.ofNat c.toNat) := by
  rw [RunTests.encodeAscii, if_pos]
  simpa [IsAscii] using h

theorem encodeAscii_textOf {s : Bytes} (h : ∀ b ∈ s, b < 128) :
    encodeAscii (textOf s) = some s := by
  rw [(isAscii_textOf h).encodeAscii, map_textOf h]

theorem translateNewlines_eq_self {s : Text} (h : '\r' ∉ s) : translateNewlines s = s := by
  fun_induction translateNewlines s with
  | case1 rest ih => simp at h
  | case2 rest hnot ih => simp at h
  | case3 c rest hnot hnot' ih =>
      rw [ih]
      intro hmem
      exact h (List.mem_cons_of_mem c hmem)
  | case4 => rfl

theorem IsAscii.translateNewlines {s : Text} (h : IsAscii s) : IsAscii (translateNewlines s) := by
  have hnewline : '\n'.toNat < 128 := by decide
  fun_induction RunTests.translateNewlines s with
  | case1 rest ih =>
      have hrest := ih fun c hc => h c (by simp [hc])
      simpa [IsAscii, hnewline] using hrest
  | case2 rest hnot ih =>
      have hrest := ih fun c hc => h c (by simp [hc])
      simpa [IsAscii, hnewline] using hrest
  | case3 c rest hnot hnot' ih =>
      have hrest := ih fun c hc => h c (by simp [hc])
      have hc := h c (by simp)
      simpa [IsAscii, hc] using hrest
  | case4 => exact h

/-- Stripping leaves characters of the text. -/
theorem mem_of_mem_strip {s : Text} {c : Char} (h : c ∈ strip s) : c ∈ s := by
  have hsub : (strip s).Sublist s :=
    (List.rdropWhile_prefix _ _).sublist.trans (List.dropWhile_sublist _)
  exact hsub.subset h

theorem IsAscii.strip {s : Text} (h : IsAscii s) : IsAscii (strip s) := by
  intro c hc
  exact h c (mem_of_mem_strip hc)

/-- What comes after the space is not stripped. -/
theorem isStripped_charOf {b : UInt8} (h : 32 < b) (h' : b < 128) :
    isStripped (charOf b) = false := by
  have hnat := toNat_charOf h'
  rw [UInt8.lt_iff_toNat_lt] at h h'
  have h32 : (32 : UInt8).toNat = 32 := rfl
  have h128 : (128 : UInt8).toNat = 128 := rfl
  simp only [isStripped, hnat, Bool.or_eq_false_iff, Bool.and_eq_false_iff, decide_eq_false_iff_not,
    beq_eq_false_iff_ne]
  omega

/-- A text that is not stripped at either end, behind which there is a newline. -/
theorem strip_append_newline {s : Text} (h : ∀ c ∈ s, isStripped c = false) :
    strip (s ++ ['\n']) = s := by
  have hnewline : isStripped '\n' = true := by decide
  have hend : s.rdropWhile isStripped = s := by
    rw [List.rdropWhile_eq_self_iff]
    intro hne
    rw [h _ (List.getLast_mem hne)]
    simp
  cases s with
  | nil => simp [strip, hnewline]
  | cons c rest =>
      -- nothing goes at the front, and the newline at the end
      have hc : isStripped c = false := h c (by simp)
      have hdrop : ((c :: rest) ++ ['\n']).dropWhile isStripped = (c :: rest) ++ ['\n'] := by
        simp [hc]
      rw [strip, hdrop, List.rdropWhile_concat_pos _ _ _ hnewline, hend]

/-! ## Lines of base64 -/

/-- The loop reads what the encoder writes. -/
theorem a2bLoop_encode (s : Bytes) : a2bLoop ⟨0, 0, 0, false⟩ (Base64.encode s) = some s := by
  have hbyte₁ : ∀ a b, UInt8.ofNat (Base64.digit₁ a * 4 + Base64.digit₂ a b / 16) = a :=
    Base64.byte₁_digits
  have hbyte₂ : ∀ a b c, UInt8.ofNat (Base64.digit₂ a b % 16 * 16 + Base64.digit₃ b c / 4) = b :=
    Base64.byte₂_digits
  have hbyte₃ : ∀ b c, UInt8.ofNat (Base64.digit₃ b c % 4 * 64 + Base64.digit₄ c) = c :=
    Base64.byte₃_digits
  fun_induction Base64.encode s with
  | case1 a b c rest ih =>
      simp [a2bLoop, Base64.decodeDigit_encodeDigit, Base64.encodeDigit_ne_pad, Base64.digit₁_lt,
        Base64.digit₂_lt, Base64.digit₃_lt, Base64.digit₄_lt, ih, hbyte₁, hbyte₂, hbyte₃]
  | case2 a b =>
      simp [a2bLoop, Base64.decodeDigit_encodeDigit, Base64.encodeDigit_ne_pad, Base64.digit₁_lt,
        Base64.digit₂_lt, Base64.digit₃_lt, hbyte₁, hbyte₂]
  | case3 a =>
      simp [a2bLoop, Base64.decodeDigit_encodeDigit, Base64.encodeDigit_ne_pad, Base64.digit₁_lt,
        Base64.digit₂_lt, hbyte₁]
  | case4 => rfl

theorem a2bBase64_encode (s : Bytes) : a2bBase64 (Base64.encode s) = some s := by
  have hhead : (Base64.encode s).head? ≠ some Base64.pad := by
    fun_cases Base64.encode s with
    | case1 a b c rest => simp [Base64.encodeDigit_ne_pad, Base64.digit₁_lt]
    | case2 a b => simp [Base64.encodeDigit_ne_pad, Base64.digit₁_lt]
    | case3 a => simp [Base64.encodeDigit_ne_pad, Base64.digit₁_lt]
    | case4 => simp
  rw [a2bBase64, if_neg hhead, a2bLoop_encode]

-- behind a full quad, and only there, more padding is accepted than there has to be
example : a2bBase64 (ascii "AAAA=") = some [0, 0, 0] ∧ a2bBase64 (ascii "AA===") = none := by
  decide

theorem getBase64Size_encode (s : Bytes) :
    getBase64Size (textOf (Base64.encode s)) = .ok (some s.length) := by
  rw [getBase64Size, encodeAscii_textOf fun _ hb => Base64.mem_encode_lt hb]
  simp [a2bBase64_encode]

theorem mem_line_lt (s : Bytes) : ∀ b ∈ Base64.encode s ++ [newline], b < 128 := by
  intro b hb
  rcases List.mem_append.mp hb with hb | hb
  · exact Base64.mem_encode_lt hb
  · rw [List.mem_singleton.mp hb]
    decide

/-- Reading the line of an encoding leaves the encoding. -/
theorem strip_line (s : Bytes) : strip (translateNewlines (textOf (Base64.encode s ++ [newline]))) =
    textOf (Base64.encode s) := by
  have hchars : ∀ c ∈ textOf (Base64.encode s), isStripped c = false := by
    intro c hc
    rcases List.mem_map.mp hc with ⟨b, hb, rfl⟩
    exact isStripped_charOf (Base64.lt_of_mem_encode hb) (Base64.mem_encode_lt hb)
  have hline : textOf (Base64.encode s ++ [newline]) = textOf (Base64.encode s) ++ ['\n'] := by
    rw [textOf, List.map_append]
    rfl
  have hreturn : '\r' ∉ textOf (Base64.encode s) ++ ['\n'] := by
    intro hmem
    rcases List.mem_append.mp hmem with hmem | hmem
    · exact absurd (hchars _ hmem) (by decide)
    · exact absurd hmem (by decide)
  rw [hline, translateNewlines_eq_self hreturn, strip_append_newline hchars]

/-! ## The verdict -/

section Verdicts

variable {locale : LocaleEncoding} {solution : Solution} {originalBlock : Text}
  {originalSize : Nat}

theorem runProcess_ok {input : Bytes} {text : Text}
    (h : runProcess locale solution input = .ok (.ok text)) :
    ∃ result out, solution input = some result ∧ locale.decode result.stdout = some out ∧
      result.exit = .success ∧ strip (translateNewlines out) = text := by
  unfold runProcess at h
  split at h
  · cases h
  · rename_i result hresult
    split at h
    · cases h
    · rename_i out hout
      split at h
      · cases h
      · rename_i hexit
        cases h
        exact ⟨result, out, hresult, hout, not_not.mp hexit, rfl⟩

/-- A run that prints the line of an encoding. -/
theorem runProcess_line {input s : Bytes} {stderr : List String}
    (h : solution input = some ⟨.success, Base64.encode s ++ [newline], stderr⟩) :
    runProcess locale solution input = .ok (.ok (textOf (Base64.encode s))) := by
  simp only [runProcess, h, locale.decode_ascii _ (mem_line_lt s), strip_line]
  rfl

/-- A text whose size could be taken is sent as the bytes it was decoded from. -/
theorem inputOf_of_getBase64Size (mode : String) {s : Text} {size : Option Nat}
    (h : getBase64Size s = .ok size) :
    ∃ bytes, encodeAscii s = some bytes ∧ inputOf mode s = request (ascii mode) bytes := by
  unfold getBase64Size at h
  split at h
  · cases h
  · rename_i bytes hbytes
    rcases Option.ite_none_right_eq_some.mp hbytes with ⟨hall, hmap⟩
    exact ⟨bytes, hbytes, by rw [inputOf, Option.some.inj hmap]⟩

/-- The input of a run on the text of an encoding. -/
theorem inputOf_encode (mode : String) (s : Bytes) :
    inputOf mode (textOf (Base64.encode s)) = request (ascii mode) (Base64.encode s) := by
  rw [inputOf, map_textOf fun _ hb => Base64.mem_encode_lt hb]

/-- **What a pass says.** Both runs end with success, the first one prints a text
within the limit, and the second one prints the block for it. -/
theorem runTest_passed {p : ℚ}
    (h : runTest locale solution originalBlock originalSize = .ok (.passed p)) :
    ∃ compressedBlock compressedSize,
      runProcess locale solution (inputOf "compress" originalBlock) = .ok (.ok compressedBlock) ∧
      getBase64Size compressedBlock = .ok (some compressedSize) ∧ compressedSize ≤ maxSize ∧
      runProcess locale solution (inputOf "decompress" compressedBlock) =
        .ok (.ok originalBlock) ∧
      p = points originalSize compressedSize := by
  unfold runTest at h
  rcases bind_eq_ok h with ⟨compressed, hcompress, h⟩
  split at h
  · cases h
  · rename_i compressedBlock
    rcases bind_eq_ok h with ⟨size, hsize, h⟩
    split at h
    · cases h
    · rename_i compressedSize
      split at h
      · cases h
      · rename_i hle
        rcases bind_eq_ok h with ⟨decompressed, hdecompress, h⟩
        split at h
        · cases h
        · rename_i decompressedBlock
          split at h
          · cases h
          · rename_i hsame
            rw [not_not.mp hsame] at hdecompress
            split at h
            · cases h
            · cases h
              exact ⟨compressedBlock, compressedSize, hcompress, hsize, Nat.not_lt.mp hle,
                hdecompress, rfl⟩

/-- Two runs that a pass asks for. -/
theorem runTest_of_runs {compressedBlock : Text} {compressedSize : Nat}
    (hcompress : runProcess locale solution (inputOf "compress" originalBlock) =
      .ok (.ok compressedBlock))
    (hsize : getBase64Size compressedBlock = .ok (some compressedSize))
    (hle : compressedSize ≤ maxSize)
    (hdecompress : runProcess locale solution (inputOf "decompress" compressedBlock) =
      .ok (.ok originalBlock)) (hpos : 0 < originalSize) :
    runTest locale solution originalBlock originalSize =
      .ok (.passed (points originalSize compressedSize)) := by
  have hsum : ¬ originalSize + compressedSize = 0 := by omega
  simp only [runTest, hcompress, hsize, hdecompress, bind, Except.bind,
    Nat.not_lt.mpr hle, if_false, ne_eq, not_true, hsum]
  rfl

def Verdict.isPassed : Verdict → Bool
  | .passed _ => true
  | _ => false

def Verdict.score : Verdict → ℚ
  | .passed points => points
  | _ => 0

/-- The verdict of an iteration is that on the size of the block. -/
theorem iteration_ok {verdict : Verdict}
    (h : iteration locale solution originalBlock = .ok verdict) :
    ∃ size, getBase64Size originalBlock = .ok (some size) ∧ size ≤ maxSize ∧
      runTest locale solution originalBlock size = .ok verdict := by
  unfold iteration at h
  rcases bind_eq_ok h with ⟨size, hsize, h⟩
  split at h
  · cases h
  · split at h
    · exact ⟨_, hsize, by assumption, h⟩
    · cases h

theorem iteration_eq {size : Nat} (hsize : getBase64Size originalBlock = .ok (some size))
    (hle : size ≤ maxSize) :
    iteration locale solution originalBlock = runTest locale solution originalBlock size := by
  simp only [iteration, hsize, bind, Except.bind, if_pos hle]

end Verdicts

/-! ## The loop -/

section Loop

variable (locale : LocaleEncoding) (solution : Solution)

/-- What the verdicts add up to. -/
def Totals.of (verdicts : List Verdict) : Totals where
  nOk := verdicts.countP Verdict.isPassed
  totalPoints := (verdicts.map Verdict.score).sum

theorem Totals.add_eq (totals : Totals) (verdict : Verdict) :
    totals.add verdict = ⟨totals.nOk + (if verdict.isPassed then 1 else 0),
      totals.totalPoints + verdict.score⟩ := by
  cases verdict <;> simp [Totals.add, Verdict.isPassed, Verdict.score]

/-- The loop from any totals on: the verdicts of all blocks, if there are, are added. -/
theorem foldlM_step (blocks : List Text) (totals : Totals) :
    blocks.foldlM (step locale solution) totals =
      (blocks.mapM (iteration locale solution)).map fun verdicts =>
        ⟨totals.nOk + (Totals.of verdicts).nOk,
          totals.totalPoints + (Totals.of verdicts).totalPoints⟩ := by
  induction blocks generalizing totals with
  | nil => simp [Totals.of, pure, Except.pure, Except.map]
  | cons block blocks ih =>
      rw [List.foldlM_cons, List.mapM_cons, step]
      cases hblock : iteration locale solution block with
      | error raised => rfl
      | ok verdict =>
          have hnext := ih (totals.add verdict)
          simp only [bind, Except.bind, pure, Except.pure, hnext]
          cases blocks.mapM (iteration locale solution) with
          | error raised => rfl
          | ok verdicts =>
              simp only [Except.map, Except.ok.injEq, Totals.add_eq, Totals.of, List.countP_cons,
                List.map_cons, List.sum_cons, Totals.mk.injEq]
              constructor
              · omega
              · ring

/-- **The script** adds up the verdicts on its blocks, of which there is at least one. -/
theorem runTests_eq {blocks : List Text} (hne : blocks ≠ []) :
    runTests locale solution blocks =
      (blocks.mapM (iteration locale solution)).map Totals.of := by
  have hlength : ¬ blocks.length = 0 := by simpa using hne
  rw [runTests, if_neg hlength, foldlM_step]
  simp only [zero_add]

variable {locale solution}

end Loop

/-! ## Solutions that print ASCII -/

/-- A solution whose outputs have ASCII bytes only. -/
def PrintsAscii (solution : Solution) : Prop :=
  ∀ input result, solution input = some result → ∀ b ∈ result.stdout, b < 128

/-- A block that the assertions accept. -/
def Accepted (block : Text) : Prop :=
  ∃ size, getBase64Size block = .ok (some size) ∧ 0 < size ∧ size ≤ maxSize

section Ascii

variable {locale : LocaleEncoding} {solution : Solution}

theorem runProcess_of_printsAscii (locale : LocaleEncoding) (h : PrintsAscii solution)
    (input : Bytes) :
    ∃ r, runProcess locale solution input = .ok r ∧ ∀ text, r = .ok text → IsAscii text := by
  unfold runProcess
  rcases hresult : solution input with _ | result
  · exact ⟨_, rfl, by simp⟩
  · have hascii := h input result hresult
    simp only [locale.decode_ascii _ hascii]
    split
    · exact ⟨_, rfl, by simp⟩
    · refine ⟨_, rfl, ?_⟩
      intro text htext
      cases htext
      exact (isAscii_textOf hascii).translateNewlines.strip

theorem getBase64Size_of_isAscii {s : Text} (h : IsAscii s) :
    ∃ size, getBase64Size s = .ok size := by
  rw [getBase64Size, h.encodeAscii]
  exact ⟨_, rfl⟩

/-- Such a solution has a verdict on every block that the assertions accept. -/
theorem exists_verdict (locale : LocaleEncoding) (h : PrintsAscii solution) {block : Text}
    (hblock : Accepted block) : ∃ verdict, iteration locale solution block = .ok verdict := by
  rcases hblock with ⟨size, hsize, hpos, hle⟩
  rw [iteration_eq hsize hle, runTest]
  rcases runProcess_of_printsAscii locale h (inputOf "compress" block) with
    ⟨r, hcompress, hascii⟩
  rw [hcompress]
  cases r with
  | error failure => exact ⟨_, rfl⟩
  | ok compressedBlock =>
      rcases getBase64Size_of_isAscii (hascii compressedBlock rfl) with ⟨compressed, hcompressed⟩
      simp only [bind, Except.bind, hcompressed]
      cases compressed with
      | none => exact ⟨_, rfl⟩
      | some compressedSize =>
          by_cases hlarge : compressedSize > maxSize
          · exact ⟨_, if_pos hlarge⟩
          · rcases runProcess_of_printsAscii locale h
              (inputOf "decompress" compressedBlock) with ⟨r', hdecompress, _⟩
            have hsum : ¬ size + compressedSize = 0 := by omega
            simp only [if_neg hlarge, hdecompress, if_neg hsum]
            cases r' with
            | error failure => exact ⟨_, rfl⟩
            | ok decompressedBlock =>
                by_cases hsame : decompressedBlock ≠ block
                · exact ⟨_, if_pos hsame⟩
                · exact ⟨_, if_neg hsame⟩

/-- The script gives totals for such a solution, and says whether it passes all blocks. -/
theorem runTests_of_printsAscii (locale : LocaleEncoding) (h : PrintsAscii solution)
    {blocks : List Text} (hne : blocks ≠ []) (hblocks : ∀ block ∈ blocks, Accepted block) :
    ∃ totals, runTests locale solution blocks = .ok totals ∧
      (totals.nOk = blocks.length ↔
        ∀ block ∈ blocks, ∃ p, iteration locale solution block = .ok (.passed p)) := by
  rw [runTests_eq locale solution hne]
  cases hverdicts : blocks.mapM (iteration locale solution) with
  | error raised =>
      -- no block raises an exception
      rcases mapM_eq_error_iff.mp hverdicts with ⟨before, block, after, rfl, _, hraise⟩
      rcases exists_verdict locale h (hblocks block (by simp)) with ⟨verdict, hverdict⟩
      rw [hverdict] at hraise
      cases hraise
  | ok verdicts =>
      have hmap := mapM_eq_ok_iff.mp hverdicts
      have hlength := congrArg List.length hmap
      rw [List.length_map, List.length_map] at hlength
      refine ⟨_, rfl, ?_⟩
      rw [Totals.of, hlength, List.countP_eq_length]
      constructor
      · intro hall block hmem
        have hok := List.mem_map_of_mem (f := iteration locale solution) hmem
        rw [hmap] at hok
        rcases List.mem_map.mp hok with ⟨verdict, hverdict, heq⟩
        have hpass := hall verdict hverdict
        rw [← heq]
        cases verdict with
        | passed p => exact ⟨p, rfl⟩
        | _ => simp [Verdict.isPassed] at hpass
      · intro hall verdict hmem
        have hok := List.mem_map_of_mem (f := (Except.ok : Verdict → Except Raised Verdict)) hmem
        rw [← hmap] at hok
        rcases List.mem_map.mp hok with ⟨block, hblock, heq⟩
        rcases hall block hblock with ⟨p, hpass⟩
        rw [heq] at hpass
        cases hpass
        rfl

/-- A solution passes a block when its runs bring the block back through a line
within the limit. -/
theorem iteration_of_runsRoundTrip {block compressed : Bytes} (hne : block ≠ [])
    (hblock : block.length ≤ maxSize)
    (hcompress : solution (request (ascii "compress") (Base64.encode block)) =
      some ⟨.success, Base64.encode compressed ++ [newline], []⟩)
    (hle : compressed.length ≤ maxSize)
    (hdecompress : solution (request (ascii "decompress") (Base64.encode compressed)) =
      some ⟨.success, Base64.encode block ++ [newline], []⟩) :
    iteration locale solution (textOf (Base64.encode block)) =
      .ok (.passed (points block.length compressed.length)) := by
  rw [iteration_eq (getBase64Size_encode block) hblock]
  rw [← inputOf_encode] at hcompress hdecompress
  exact runTest_of_runs (runProcess_line hcompress) (getBase64Size_encode compressed) hle
    (runProcess_line hdecompress) (List.length_pos_iff.mpr hne)

end Ascii

end TonEncoder.RunTests
