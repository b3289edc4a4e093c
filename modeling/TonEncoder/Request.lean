import TonEncoder.Codec.Process

/-! # Requests

The programs read two words: a mode and a text. `request` is how `run_tests.py`
passes them.
-/

namespace TonEncoder

open Process

/-- The input of `run_tests.py`: the mode on a line, then the data. -/
def request (mode data : Bytes) : Bytes := mode ++ newline :: data

/-- The mode word of an input. -/
def modeWord (input : Bytes) : Bytes := firstWord input

/-- The data word of an input. -/
def dataWord (input : Bytes) : Bytes := firstWord (afterWord input)

theorem isWord_compress : IsWord (ascii "compress") := isWord_of_all (by decide)

theorem isWord_decompress : IsWord (ascii "decompress") := isWord_of_all (by decide)

theorem modeWord_request {mode : Bytes} (hmode : IsWord mode) (data : Bytes) :
    modeWord (request mode data) = mode :=
  firstWord_line hmode data

theorem dataWord_request {mode data : Bytes} (hmode : IsWord mode) (hdata : IsWord data) :
    dataWord (request mode data) = data := by
  rw [dataWord, request, afterWord_line hmode, firstWord_newline, firstWord_last hdata]

theorem nil_mem_lineEnds : [] ∈ [[], [newline]] := List.mem_cons_self

/-- A newline behind the data is not part of its word. -/
theorem dataWord_request_lineEnd {mode data lineEnd : Bytes} (hmode : IsWord mode)
    (hdata : IsWord data) (hend : lineEnd ∈ [[], [newline]]) :
    dataWord (request mode (data ++ lineEnd)) = data := by
  simp only [List.mem_cons, List.not_mem_nil, or_false] at hend
  rcases hend with rfl | rfl
  · rw [List.append_nil]
    exact dataWord_request hmode hdata
  · rw [dataWord, request, afterWord_line hmode, firstWord_newline, firstWord_line hdata]

/-- The runs of two programs bring a text back: the one prints a line for it, and
the other, which gets the line with or without its newline, prints the text. -/
def RunsRoundTrip (runCompress runDecompress : Bytes → Report) (text : Bytes) : Prop :=
  ∃ line, runCompress (request (ascii "compress") text) = ⟨.success, line ++ [newline], []⟩ ∧
    ∀ lineEnd ∈ [[], [newline]],
      runDecompress (request (ascii "decompress") (line ++ lineEnd)) =
        ⟨.success, text ++ [newline], []⟩

end TonEncoder
