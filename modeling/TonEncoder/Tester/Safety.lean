import TonEncoder.Tester.Solution
import TonEncoder.Reference

/-! # Failures of the tester program

The functions catch standard exceptions, and the main function catches what is
left of them. Of the failures of the library only those of gzip become an
exception; the others are error results, which `move_as_ok` turns into the end of
the process.

* `safeCall_iff`: the functions report a failure and return exactly when no
  result on the way is an error;
* `noSilentFailure_iff`: a run fails silently exactly when gzip fails while no
  result on the way is an error.
-/

namespace TonEncoder.Tester

open Process

variable {Cell : Type} (lib : TonCryptoLib Cell)

/-! ## Safe calls -/

/-- All steps of `compress` succeed on `data` and yield `buffer`. -/
def CompressYields (data buffer : Bytes) : Prop :=
  ∃ root serialized, lib.stdBocDeserialize data = .ok root ∧
    lib.stdBocSerialize root 2 = .ok serialized ∧
    lib.gzencode (lz4Stream lib serialized) 1 = buffer ∧ buffer ≠ []

/-- All steps of `decompress` succeed on `data` and yield `block`. -/
def DecompressYields (data block : Bytes) : Prop :=
  lib.gzdecode data ≠ [] ∧ ∃ serialized root,
    lib.lz4Decompress (lib.gzdecode data) maxDecompressedSize = .ok serialized ∧
    lib.stdBocDeserialize serialized = .ok root ∧ lib.stdBocSerialize root 31 = .ok block

/-- A call returns: with what its steps yield, and if they yield nothing with the
empty buffer and a report that starts with `message`. -/
def SafeCall (call : Proc Bytes) (yields : Bytes → Prop) (message : String) : Prop :=
  ∀ con, (∃ buffer, yields buffer ∧ call con = (.returned buffer, con)) ∨
    ((∀ buffer, ¬ yields buffer) ∧
      ∃ what, call con = (.returned [], con.withErr [message ++ what]))

/-- Every result on the way of `compress` is a value. -/
def CompressAccepts (data : Bytes) : Prop :=
  ∃ root serialized, lib.stdBocDeserialize data = .ok root ∧
    lib.stdBocSerialize root 2 = .ok serialized

/-- Every result on the way of `decompress` is a value. -/
def DecompressAccepts (data : Bytes) : Prop :=
  ∃ serialized root block,
    lib.lz4Decompress (lib.gzdecode data) maxDecompressedSize = .ok serialized ∧
    lib.stdBocDeserialize serialized = .ok root ∧ lib.stdBocSerialize root 31 = .ok block

variable {lib}

/-- A call that is safe does not end the process. -/
theorem SafeCall.not_fatal {call : Proc Bytes} {yields : Bytes → Prop} {message what : String}
    (h : SafeCall call yields message) {con con' : Console} : call con ≠ (.fatal what, con') := by
  intro hfatal
  rcases h con with ⟨buffer, _, hrun⟩ | ⟨_, what', hrun⟩
  · rw [hrun] at hfatal
    cases hfatal
  · rw [hrun] at hfatal
    cases hfatal

theorem compress_safe_of_accepts {data : Bytes} (h : CompressAccepts lib data) :
    SafeCall (compress lib data) (CompressYields lib data) "Compression failed: " := by
  intro con
  rcases h with ⟨root, serialized, hdeser, hser⟩
  by_cases hgz : lib.gzencode (lz4Stream lib serialized) 1 = []
  · -- gzip failed: the steps yield nothing, and the handler reports it
    right
    constructor
    · rintro buffer ⟨root', serialized', hdeser', hser', hbuffer, hne⟩
      rw [hdeser] at hdeser'
      cases hdeser'
      rw [hser] at hser'
      cases hser'
      exact hne (hbuffer.symm.trans hgz)
    · exact ⟨_, compress_run (.gzipEmpty hdeser hser hgz) con⟩
  · left
    have hrun := compress_run (.done hdeser hser hgz) con
    rw [Console.withErr_nil] at hrun
    exact ⟨_, ⟨root, serialized, hdeser, hser, rfl, hgz⟩, hrun⟩

theorem decompress_safe_of_accepts {data : Bytes} (h : DecompressAccepts lib data) :
    SafeCall (decompress lib data) (DecompressYields lib data) "Decompression failed: " := by
  intro con
  rcases h with ⟨serialized, root, block, hlz4, hdeser, hser⟩
  by_cases hgz : lib.gzdecode data = []
  · -- the check on the gunzipped stream throws, after the steps have used it
    right
    constructor
    · rintro buffer ⟨hne, _⟩
      exact hne hgz
    · exact ⟨_, decompress_run (.gzipEmpty hlz4 hdeser hser hgz) con⟩
  · left
    have hrun := decompress_run (.done hlz4 hdeser hser hgz) con
    rw [Console.withErr_nil] at hrun
    exact ⟨block, ⟨hgz, serialized, root, hlz4, hdeser, hser⟩, hrun⟩

/-- **Safety on untrusted bytes** holds of a call exactly when every result on its
way is a value: the handlers see the failures of gzip and no others. -/
theorem safeCall_iff (lib : TonCryptoLib Cell) (data : Bytes) :
    (SafeCall (compress lib data) (CompressYields lib data) "Compression failed: " ↔
        CompressAccepts lib data) ∧
      (SafeCall (decompress lib data) (DecompressYields lib data) "Decompression failed: " ↔
        DecompressAccepts lib data) := by
  constructor
  · refine ⟨fun hsafe => ?_, compress_safe_of_accepts⟩
    rcases exists_compressEnds lib data with ⟨outcome, log, hends⟩
    have hrun := compress_run hends ⟨[], [], []⟩
    -- an error result ends the process, which a safe call does not
    cases hends with
    | deserializeError => exact absurd hrun hsafe.not_fatal
    | serializeError => exact absurd hrun hsafe.not_fatal
    | gzipEmpty hdeser hser => exact ⟨_, _, hdeser, hser⟩
    | done hdeser hser => exact ⟨_, _, hdeser, hser⟩
  · refine ⟨fun hsafe => ?_, decompress_safe_of_accepts⟩
    rcases exists_decompressEnds lib data with ⟨outcome, log, hends⟩
    have hrun := decompress_run hends ⟨[], [], []⟩
    cases hends with
    | lz4Error => exact absurd hrun hsafe.not_fatal
    | deserializeError => exact absurd hrun hsafe.not_fatal
    | serializeError => exact absurd hrun hsafe.not_fatal
    | gzipEmpty hlz4 hdeser hser => exact ⟨_, _, _, hlz4, hdeser, hser⟩
    | done hlz4 hdeser hser => exact ⟨_, _, _, hlz4, hdeser, hser⟩

/-- The empty buffer ends the process inside both functions. -/
theorem not_safeCall_nil :
    ¬ SafeCall (compress Reference.lib []) (CompressYields Reference.lib [])
        "Compression failed: " ∧
      ¬ SafeCall (decompress Reference.lib []) (DecompressYields Reference.lib [])
        "Decompression failed: " := by
  constructor
  · intro hsafe
    rcases Reference.bocRejectsEmpty with ⟨status, herror⟩
    exact hsafe.not_fatal (compress_run (.deserializeError herror) ⟨[], [], []⟩)
  · intro hsafe
    exact hsafe.not_fatal (decompress_run (.lz4Error rfl) ⟨[], [], []⟩)

/-! ## Silent failures -/

variable (lib)

/-- The operation that an input requests. -/
inductive Requests (input : Bytes) : Proc Bytes → Prop where
  | compress (hmode : modeWord input = ascii "compress") (hdata : dataWord input ≠ []) :
      Requests input (compress lib (lib.base64Decode (dataWord input)))
  | decompress (hmode : modeWord input = ascii "decompress") (hdata : dataWord input ≠ []) :
      Requests input (decompress lib (lib.base64Decode (dataWord input)))

/-- The requested operation produces a buffer: it returns it, and it is not
empty. -/
def Produces (input buffer : Bytes) : Prop :=
  buffer ≠ [] ∧ ∃ call, Requests lib input call ∧ ∀ con, (call con).1 = .returned buffer

/-- A run either delivers the result of its request, with status zero, or has a
non-zero status and prints nothing. -/
def NoSilentFailure (input : Bytes) : Prop :=
  (∃ buffer, Produces lib input buffer ∧ (run lib input).exit = .success ∧
      (run lib input).stdout = lib.strBase64Encode buffer ++ [newline]) ∨
    ((run lib input).exit ≠ .success ∧ (run lib input).stdout = [])

/-- Gzip fails while every result on the way is a value: it refuses the LZ4 stream of
the block, or the data is no gzip stream while LZ4 accepts the empty one. -/
inductive SilentGzip (input : Bytes) : Prop where
  | compress {root : Cell} {serialized : Bytes} (hmode : modeWord input = ascii "compress")
      (hdata : dataWord input ≠ [])
      (hdeser : lib.stdBocDeserialize (lib.base64Decode (dataWord input)) = .ok root)
      (hser : lib.stdBocSerialize root 2 = .ok serialized)
      (hgz : lib.gzencode (lz4Stream lib serialized) 1 = [])
  | decompress {serialized block : Bytes} {root : Cell}
      (hmode : modeWord input = ascii "decompress") (hdata : dataWord input ≠ [])
      (hgz : lib.gzdecode (lib.base64Decode (dataWord input)) = [])
      (hlz4 : lib.lz4Decompress [] maxDecompressedSize = .ok serialized)
      (hdeser : lib.stdBocDeserialize serialized = .ok root)
      (hser : lib.stdBocSerialize root 31 = .ok block)

variable {lib}

/-- A request that returns the empty buffer is a silent failure. -/
theorem not_noSilentFailure_of_empty {input : Bytes} {log : List String} {call : Proc Bytes}
    (hrequest : ∀ call', Requests lib input call' → call' = call)
    (hcall : ∀ con, (call con).1 = .returned [])
    (hrun : run lib input = requestReport lib (.returned []) log) :
    ¬ NoSilentFailure lib input := by
  rintro (⟨buffer, ⟨hne, call', hreq, hret⟩, _, _⟩ | ⟨hexit, _⟩)
  · -- the result would be the empty buffer
    have hcall' := hret ⟨[], [], []⟩
    rw [hrequest call' hreq, hcall, Outcome.returned.injEq] at hcall'
    exact hne hcall'.symm
  · apply hexit
    rw [hrun]
    rfl

theorem requests_unique {input : Bytes} {call call' : Proc Bytes} (h : Requests lib input call)
    (h' : Requests lib input call') : call' = call := by
  have hmodes : ascii "decompress" ≠ ascii "compress" := by decide
  cases h with
  | compress hmode hdata =>
      cases h' with
      | compress => rfl
      | decompress hmode' => exact absurd (hmode'.symm.trans hmode) hmodes
  | decompress hmode hdata =>
      cases h' with
      | compress hmode' => exact absurd (hmode.symm.trans hmode') hmodes
      | decompress => rfl

/-- A run that prints nothing and has no success is not a silent failure. -/
theorem noSilentFailure_of_exit {input : Bytes} {r : Report} (hrun : run lib input = r)
    (hexit : r.exit ≠ .success) (hstdout : r.stdout = []) : NoSilentFailure lib input := by
  right
  rw [hrun]
  exact ⟨hexit, hstdout⟩

/-- A request that ends in the end of the process is not a silent failure. -/
theorem noSilentFailure_of_fatal {input : Bytes} {message : String} {log : List String}
    (hrun : run lib input = requestReport lib (.fatal message) log) :
    NoSilentFailure lib input := by
  apply noSilentFailure_of_exit hrun
  · simp [requestReport, Exit.success]
  · rfl

/-- A request that returns a buffer which is not empty delivers it. -/
theorem noSilentFailure_of_returned {input buffer : Bytes} {log : List String}
    {call : Proc Bytes} (hrequest : Requests lib input call) (hne : buffer ≠ [])
    (hcall : ∀ con, (call con).1 = .returned buffer)
    (hrun : run lib input = requestReport lib (.returned buffer) log) :
    NoSilentFailure lib input := by
  left
  rw [hrun]
  exact ⟨buffer, ⟨hne, call, hrequest, hcall⟩, rfl, rfl⟩

/-- Gzip that fails with every result a value is a silent failure. -/
theorem SilentGzip.not_noSilentFailure {input : Bytes} (hempty : BocRejectsEmpty lib)
    (h : SilentGzip lib input) : ¬ NoSilentFailure lib input := by
  cases h with
  | compress hmode hdata hdeser hser hgz =>
      -- the empty buffer would not have been accepted
      have hbinary : lib.base64Decode (dataWord input) ≠ [] := by
        intro hnil
        rcases hempty with ⟨status, herror⟩
        rw [hnil, herror] at hdeser
        cases hdeser
      have hends := CompressEnds.gzipEmpty hdeser hser hgz
      refine not_noSilentFailure_of_empty
        (fun _ => requests_unique (.compress hmode hdata)) ?_ (run_compress hmode hdata hbinary hends)
      intro con
      rw [compress_run hends con]
  | decompress hmode hdata hgz hlz4 hdeser hser =>
      rw [← hgz] at hlz4
      have hends := DecompressEnds.gzipEmpty hlz4 hdeser hser hgz
      refine not_noSilentFailure_of_empty
        (fun _ => requests_unique (.decompress hmode hdata)) ?_ (run_decompress hmode hdata hends)
      intro con
      rw [decompress_run hends con]

/-- **No silent failure**, exactly when gzip does not fail behind results that are
all values. -/
theorem noSilentFailure_iff (hround : BocRoundTrip lib) (hempty : BocRejectsEmpty lib)
    (input : Bytes) : NoSilentFailure lib input ↔ ¬ SilentGzip lib input := by
  constructor
  · intro h hsilent
    exact hsilent.not_noSilentFailure hempty h
  · intro hsilent
    have hrun := run_ends lib input
    generalize hr : run lib input = r at hrun
    cases hrun with
    | invalidMode => exact noSilentFailure_of_exit hr (by simp [Exit.success]) rfl
    | noData => exact noSilentFailure_of_exit hr (by simp [Exit.success]) rfl
    | nullSlice => exact noSilentFailure_of_exit hr (by simp [Exit.success]) rfl
    | compress hmode hdata hbinary hends =>
        have hcall := fun con => congrArg Prod.fst (compress_run hends con)
        cases hends with
        | deserializeError => exact noSilentFailure_of_fatal hr
        | serializeError => exact noSilentFailure_of_fatal hr
        | gzipEmpty hdeser hser hgz =>
            -- the failure of gzip that the condition excludes
            exact absurd (.compress hmode hdata hdeser hser hgz) hsilent
        | done _ _ hgz => exact noSilentFailure_of_returned (.compress hmode hdata) hgz hcall hr
    | decompress hmode hdata hends =>
        have hcall := fun con => congrArg Prod.fst (decompress_run hends con)
        cases hends with
        | lz4Error => exact noSilentFailure_of_fatal hr
        | deserializeError => exact noSilentFailure_of_fatal hr
        | serializeError => exact noSilentFailure_of_fatal hr
        | gzipEmpty hlz4 hdeser hser hgz =>
            -- gunzip failed, and the steps went on with the empty stream
            rw [hgz] at hlz4
            exact absurd (.decompress hmode hdata hgz hlz4 hdeser hser) hsilent
        | done _ _ hser _ =>
            -- the stored form, which is not empty
            have hne := serialize_ne_nil hround hempty hser
            exact noSilentFailure_of_returned (.decompress hmode hdata) hne hcall hr

/-- The request to compress the stored form of a sample. -/
def compressSample (root : Reference.Sample) : Bytes :=
  request (ascii "compress") (Base64.encode (Reference.blockForm root))

theorem isWord_encode_blockForm (root : Reference.Sample) :
    IsWord (Base64.encode (Reference.blockForm root)) :=
  Base64.isWord_encode (Reference.blockForm_ne_nil root)

theorem modeWord_compressSample (root : Reference.Sample) :
    modeWord (compressSample root) = ascii "compress" :=
  modeWord_request isWord_compress _

theorem dataWord_compressSample (root : Reference.Sample) :
    dataWord (compressSample root) = Base64.encode (Reference.blockForm root) :=
  dataWord_request isWord_compress (isWord_encode_blockForm root)

theorem base64Decode_compressSample (root : Reference.Sample) :
    Reference.lib.base64Decode (dataWord (compressSample root)) = Reference.blockForm root := by
  rw [dataWord_compressSample]
  exact Reference.base64Decode_encode (Reference.blockForm root)

/-- A sample that fits one chunk. -/
theorem lz4Stream_compactForm {root : Reference.Sample}
    (hle : Reference.compactLength root ≤ chunkSize) :
    lz4Stream Reference.lib (Reference.compactForm root) =
      Reference.lib.lz4Compress (Reference.compactForm root) := by
  rw [← Reference.length_compactForm] at hle
  exact Chunks.stream_of_length_le Reference.lib.lz4Compress (Reference.compactForm_ne_nil root) hle

/-- Gzip refuses the stream of 530 random bytes. -/
theorem gzencode_lz4Stream_noise :
    Reference.lib.gzencode (lz4Stream Reference.lib (Reference.compactForm .noise)) 1 = [] := by
  rw [lz4Stream_compactForm (by simp [Reference.compactLength, chunkSize]),
    Reference.gzencode_noise]

/-- It takes that of the wide cell. -/
theorem gzencode_lz4Stream_wide :
    Reference.lib.gzencode (lz4Stream Reference.lib (Reference.compactForm .wide)) 1 =
      Reference.wideStream := by
  rw [lz4Stream_compactForm (by simp [Reference.compactLength, chunkSize]), Reference.gzencode_wide]

theorem wideStream_ne_nil : Reference.wideStream ≠ [] := List.cons_ne_nil _ _

/-- The run that compresses a block of 540 bytes prints an empty line and has status
zero, although gzip failed. -/
theorem silentFailure_noise :
    run Reference.lib (compressSample .noise) = ⟨.success, [newline],
        ["Compression failed: " ++ "Gzip compression returned empty data."]⟩ ∧
      ¬ NoSilentFailure Reference.lib (compressSample .noise) := by
  have hmode := modeWord_compressSample .noise
  have hdata : dataWord (compressSample .noise) ≠ [] := by
    rw [dataWord_compressSample]
    exact (isWord_encode_blockForm .noise).1
  have hbinary := base64Decode_compressSample .noise
  have hends : CompressEnds Reference.lib
      (Reference.lib.base64Decode (dataWord (compressSample .noise))) (.returned [])
      ["Compression failed: " ++ "Gzip compression returned empty data."] := by
    rw [hbinary]
    exact .gzipEmpty (Reference.deserialize_blockForm .noise)
      (Reference.serialize_compactMode .noise) gzencode_lz4Stream_noise
  have hne := Reference.blockForm_ne_nil .noise
  rw [← hbinary] at hne
  have hrun := run_compress hmode hdata hne hends
  constructor
  · rw [hrun]
    rfl
  · refine not_noSilentFailure_of_empty
      (fun _ => requests_unique (.compress hmode hdata)) ?_ hrun
    intro con
    rw [compress_run hends con]

/-- The block of the wide cell is compressed. -/
theorem noSilentFailure_wide : NoSilentFailure Reference.lib (compressSample .wide) := by
  refine (noSilentFailure_iff Reference.bocRoundTrip Reference.bocRejectsEmpty
    (compressSample .wide)).mpr ?_
  intro hsilent
  cases hsilent with
  | compress hmode hdata hdeser hser hgz =>
      rw [base64Decode_compressSample] at hdeser
      cases hdeser.symm.trans (Reference.deserialize_blockForm .wide)
      cases hser.symm.trans (Reference.serialize_compactMode .wide)
      rw [gzencode_lz4Stream_wide] at hgz
      exact wideStream_ne_nil hgz
  | decompress hmode =>
      rw [modeWord_compressSample] at hmode
      exact absurd hmode (by decide)

end TonEncoder.Tester
