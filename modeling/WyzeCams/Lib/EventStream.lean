import WyzeCams.Lib.Utf8Stream

/-! Server-sent events: the stream that an `EventSource` reads, and what it makes of it, in whatever
chunks the bytes arrive. The fields `id` and `retry` change no message, and are left out. -/
namespace EventStream
open Utf8

structure Message where
  type : List Char
  data : List Char
  deriving DecidableEq, Repr

/-- The reader of the characters: whether it has read none, whether the last one was a CR, the line
so far, and the fields of the message so far. -/
structure Reader where
  fresh : Bool
  cr : Bool
  line : List Char
  type : List Char
  data : List Char
  deriving DecidableEq, Repr

def Reader.init : Reader := ⟨true, false, [], [], []⟩

def BOM : Char := Char.ofNat 0xFEFF

/-- The line without its colon, and one space behind it. -/
def splitField (line : List Char) : List Char × List Char :=
  let value := (line.dropWhile (· ≠ ':')).drop 1
  (line.takeWhile (· ≠ ':'), if value.head? = some ' ' then value.drop 1 else value)

def setField (r : Reader) (name value : List Char) : Reader :=
  if name = ['e', 'v', 'e', 'n', 't'] then { r with type := value }
  else if name = ['d', 'a', 't', 'a'] then { r with data := r.data ++ value ++ ['\n'] }
  else r

/-- An empty line ends a message; one without data is none. -/
def dispatch (r : Reader) : Reader × List Message :=
  let message : Message :=
    ⟨if r.type = [] then ['m', 'e', 's', 's', 'a', 'g', 'e'] else r.type, r.data.dropLast⟩
  ({ r with type := [], data := [] }, if r.data = [] then [] else [message])

/-- The end of a line; a line that starts with a colon is a comment. -/
def endLine (r : Reader) : Reader × List Message :=
  let line := r.line
  let r := { r with line := [] }
  if line = [] then dispatch r
  else if line.head? = some ':' then (r, [])
  else (setField r (splitField line).1 (splitField line).2, [])

def readChar (r : Reader) (c : Char) : Reader × List Message :=
  let fresh := r.fresh
  let cr := r.cr
  let r := { r with fresh := false, cr := c = '\r' }
  if fresh && c = BOM then (r, [])
  else if c = '\n' then if cr then (r, []) else endLine r
  else if c = '\r' then endLine r
  else ({ r with line := r.line ++ [c] }, [])

def readChars : Reader → List Char → Reader × List Message
  | r, [] => (r, [])
  | r, c :: cs =>
    let rest := readChars (readChar r c).1 cs
    (rest.1, (readChar r c).2 ++ rest.2)

/-- An `EventSource`: the characters are decoded as they arrive. -/
structure Source where
  decoder : Decoder
  reader : Reader

def Source.init : Source := ⟨.idle, .init⟩

def receive (s : Source) (chunk : Bytes) : Source × List Message :=
  let decoded := decodeBytes s.decoder chunk
  let read := readChars s.reader decoded.2
  (⟨decoded.1, read.1⟩, read.2)

def receiveAll : Source → List Bytes → Source × List Message
  | s, [] => (s, [])
  | s, chunk :: chunks =>
    let rest := receiveAll (receive s chunk).1 chunks
    (rest.1, (receive s chunk).2 ++ rest.2)

theorem readChars_append (r : Reader) (cs ds : List Char) :
    readChars r (cs ++ ds) =
      ((readChars (readChars r cs).1 ds).1,
        (readChars r cs).2 ++ (readChars (readChars r cs).1 ds).2) := by
  induction cs generalizing r with
  | nil => rfl
  | cons c cs ih => rw [List.cons_append, readChars, ih, readChars, List.append_assoc]

/-- Where the chunks begin and end makes no difference. -/
theorem receiveAll_eq (s : Source) (chunks : List Bytes) :
    receiveAll s chunks = receive s chunks.flatten := by
  induction chunks generalizing s with
  | nil => rfl
  | cons chunk chunks ih =>
    have hdecoded := decodeBytes_append s.decoder chunk chunks.flatten
    rw [receiveAll, ih, List.flatten_cons, receive, receive, receive, hdecoded]
    dsimp only
    rw [readChars_append]

theorem receiveAll_encode {chunks : List Bytes} {text : List Char}
    (h : chunks.flatten = encode text) :
    (receiveAll .init chunks).2 = (readChars .init text).2 := by
  have hdecoded : decodeBytes Source.init.decoder (encode text) = (.idle, text) :=
    decodeBytes_encode text
  rw [receiveAll_eq, h, receive, hdecoded]
  rfl

def OneLine (text : List Char) : Prop := ∀ c ∈ text, c ≠ '\n' ∧ c ≠ '\r'

theorem oneLine_of_all {text : List Char} (h : text.all (fun c => c ≠ '\n' && c ≠ '\r') = true) :
    OneLine text := by
  intro c hc
  have hboth := List.all_eq_true.mp h c hc
  rwa [Bool.and_eq_true, decide_eq_true_eq, decide_eq_true_eq] at hboth

inductive Frame where
  | comment (text : List Char)
  | data (text : List Char)

def Frame.text : Frame → List Char
  | .comment text => ':' :: ' ' :: text ++ ['\n', '\n']
  | .data text => 'd' :: 'a' :: 't' :: 'a' :: ':' :: ' ' :: text ++ ['\n', '\n']

def Frame.OneLine : Frame → Prop
  | .comment text => EventStream.OneLine text
  | .data text => EventStream.OneLine text

def Frame.message : Frame → List Message
  | .comment _ => []
  | .data text => [⟨['m', 'e', 's', 's', 'a', 'g', 'e'], text⟩]

def Reader.between : Reader := ⟨false, false, [], [], []⟩

theorem readChar_between {c : Char} (hc : c ≠ '\n' ∧ c ≠ '\r') (line : List Char) :
    readChar { Reader.between with line := line } c =
      ({ Reader.between with line := line ++ [c] }, []) := by
  have hcr : decide (c = '\r') = false := decide_eq_false hc.2
  rw [readChar]
  simp only [Reader.between, hcr, Bool.false_and, if_neg hc.1, if_neg hc.2]
  rfl

theorem readChars_line {text : List Char} (h : OneLine text) (line : List Char) :
    readChars { Reader.between with line := line } text =
      ({ Reader.between with line := line ++ text }, []) := by
  induction text generalizing line with
  | nil => rw [List.append_nil]; rfl
  | cons c text ih =>
    obtain ⟨hc, hrest⟩ := List.forall_mem_cons.mp h
    rw [readChars, readChar_between hc, ih hrest, List.append_assoc]
    rfl

/-- The first character of a stream is read like any other, unless it is the byte order mark. -/
theorem readChars_init {c : Char} (hbom : c ≠ BOM) (cs : List Char) :
    readChars .init (c :: cs) = readChars .between (c :: cs) := by
  have hchar : readChar .init c = readChar .between c := by
    rw [readChar, readChar]
    simp only [Reader.init, Reader.between, decide_eq_false hbom, Bool.and_false]
    rfl
  rw [readChars, readChars, hchar]

theorem readChar_newline {r : Reader} (hfresh : r.fresh = false) (hcr : r.cr = false) :
    readChar r '\n' = endLine r := by
  obtain ⟨fresh, cr, line, type, data⟩ := r
  dsimp only at hfresh hcr
  subst hfresh hcr
  rfl

theorem endLine_data (text : List Char) :
    endLine { Reader.between with line := 'd' :: 'a' :: 't' :: 'a' :: ':' :: ' ' :: text } =
      ({ Reader.between with data := text ++ ['\n'] }, []) := rfl

theorem endLine_comment (text : List Char) :
    endLine { Reader.between with line := ':' :: text } = (.between, []) := rfl

theorem endLine_message (text : List Char) :
    endLine { Reader.between with data := text ++ ['\n'] } =
      (.between, [⟨['m', 'e', 's', 's', 'a', 'g', 'e'], text⟩]) := by
  have hdata : text ++ ['\n'] ≠ [] := List.append_ne_nil_of_right_ne_nil _ (List.cons_ne_nil _ _)
  have hend : endLine { Reader.between with data := text ++ ['\n'] } =
      dispatch { Reader.between with data := text ++ ['\n'] } := rfl
  rw [hend, dispatch]
  dsimp only
  rw [if_neg hdata, List.dropLast_concat]
  rfl

theorem readChars_frame {f : Frame} (h : f.OneLine) :
    readChars .between f.text = (.between, f.message) := by
  cases f with
  | comment text =>
    have hline : OneLine (':' :: ' ' :: text) :=
      List.forall_mem_cons.mpr ⟨by decide, List.forall_mem_cons.mpr ⟨by decide, h⟩⟩
    have hread : readChars .between (':' :: ' ' :: text) =
        ({ Reader.between with line := ':' :: ' ' :: text }, []) := readChars_line hline []
    rw [Frame.text, readChars_append, hread, readChars, readChar_newline rfl rfl, endLine_comment,
      readChars, readChar_newline rfl rfl]
    rfl
  | data text =>
    have hline : OneLine ('d' :: 'a' :: 't' :: 'a' :: ':' :: ' ' :: text) := by
      simp only [OneLine, List.forall_mem_cons]
      exact ⟨by decide, by decide, by decide, by decide, by decide, by decide, h⟩
    have hread : readChars .between ('d' :: 'a' :: 't' :: 'a' :: ':' :: ' ' :: text) =
        ({ Reader.between with line := 'd' :: 'a' :: 't' :: 'a' :: ':' :: ' ' :: text }, []) :=
      readChars_line hline []
    rw [Frame.text, readChars_append, hread, readChars, readChar_newline rfl rfl, endLine_data,
      readChars, readChar_newline rfl rfl, endLine_message]
    rfl

theorem readChars_frames {fs : List Frame} (h : ∀ f ∈ fs, f.OneLine) :
    readChars .between (fs.flatMap Frame.text) = (.between, fs.flatMap Frame.message) := by
  induction fs with
  | nil => rfl
  | cons f fs ih =>
    obtain ⟨hf, hrest⟩ := List.forall_mem_cons.mp h
    rw [List.flatMap_cons, readChars_append, readChars_frame hf]
    dsimp only
    rw [ih hrest]
    rfl

/-- What a server has written in whole frames is received as their messages, in whatever chunks it
arrives. -/
theorem receiveAll_frames {fs : List Frame} (h : ∀ f ∈ fs, f.OneLine) {chunks : List Bytes}
    (hchunks : chunks.flatten = encode (fs.flatMap Frame.text)) :
    (receiveAll .init chunks).2 = fs.flatMap Frame.message := by
  rw [receiveAll_encode hchunks]
  cases fs with
  | nil => rfl
  | cons f fs =>
    have hfirst : readChars .init ((f :: fs).flatMap Frame.text) =
        readChars .between ((f :: fs).flatMap Frame.text) := by
      cases f with
      | comment text => exact readChars_init (by decide) _
      | data text => exact readChars_init (by decide) _
    rw [hfirst, readChars_frames h]

end EventStream
