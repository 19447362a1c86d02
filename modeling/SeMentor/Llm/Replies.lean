import SeMentor.Api.Workbench
import SeMentor.Execution.ReadTools
import SeMentor.Impact.ReportService
import SeMentor.Lib.JsonRoundTrip
import SeMentor.PathStability

set_option autoImplicit false

/- What `impact/report_service.py` and `proposals/generator.py` take for the JSON object of a reply:
the reply itself, what a code fence encloses, or the first object in it. -/
namespace SeMentor.Llm

open Paths JsonText
open Api (splitlines)

/-- The loop of `_extract_json_object`. -/
def firstObject : Str → Option Str
  | [] => none
  | c :: rest =>
      if c = '\x7b' then
        match rawDecode (c :: rest) with
        | some (_, after) => some ((c :: rest).take ((c :: rest).length - after.length))
        | none => firstObject rest
      else firstObject rest

/-- `_extract_json_object`; the two differ in what they take for a fence. -/
def extractObject (fenced : Str → Bool) (content : Str) : Option Str :=
  let lines := splitlines (strip content)
  if fenced (strip content) ∧ 3 ≤ lines.length then
    some (strip (['\n'].intercalate (lines.drop 1).dropLast))
  else firstObject content

/-- The value of a reply, through `_extract_json_object` where it is no JSON text itself. -/
def readReply (fenced : Str → Bool) (content : Str) : Option Value :=
  match loads content with
  | some value => some value
  | none => (extractObject fenced content).bind loads

end SeMentor.Llm

namespace SeMentor.Impact

open Paths JsonText

/-- `_extract_json_object` of `impact/report_service.py` -/
def fenced (stripped : Str) : Bool :=
  "```".toList.isPrefixOf stripped && "```".toList.isSuffixOf stripped

/-- `_parse_response` -/
def parseResponse (content : Str) : Except ReportFailure (List (Text × Value)) :=
  match Llm.readReply fenced content with
  | some (.dict fields) => .ok fields
  | _ => .error (.impactReportGenerationError "invalid impact report JSON".toList)

end SeMentor.Impact

namespace SeMentor.Proposals

open Paths JsonText

/-- `_extract_json_object` of `proposals/generator.py` -/
def fenced (stripped : Str) : Bool :=
  "```".toList.isPrefixOf stripped &&
    (Api.splitlines stripped).getLast?.any fun line => strip line = "```".toList

/-- `_loads_proposal_json` -/
def loadsProposalJson (content : Str) : Option Value := Llm.readReply fenced content

end SeMentor.Proposals

namespace SeMentor.Llm

open Paths JsonText
open Api (splitlines)
open Execution (universalNewlines isLineBreak)

/-! ### The first object -/

theorem firstObject_letter {c : Char} (letter : c ≠ '\x7b') (rest : Str) :
    firstObject (c :: rest) = firstObject rest := if_neg letter

theorem firstObject_prose {prose : Str} (plain : '\x7b' ∉ prose) (rest : Str) :
    firstObject (prose ++ rest) = firstObject rest := by
  induction prose with
  | nil => rfl
  | cons c prose ih =>
      rw [List.mem_cons, not_or] at plain
      rw [List.cons_append, firstObject_letter (Ne.symm plain.1), ih plain.2]

/-- An object is taken as it stands, whatever follows it. -/
theorem firstObject_object {body : Str} {value : Value} (opens : body.head? = some '\x7b')
    (whole : rawDecode body = some (value, [])) (compound : ∀ scalar, value ≠ .scalar scalar)
    (tail : Str) : firstObject (body ++ tail) = some body := by
  have read := (rawDecode_iff.mp whole).changed (keepsLetters_append tail) fun scalar same =>
    absurd (Part.value.inj same) (compound scalar)
  obtain ⟨later, rfl⟩ := List.head?_eq_some_iff.mp opens
  have found := rawDecode_iff.mpr read
  rw [List.nil_append, List.cons_append] at found
  rw [List.cons_append, firstObject, if_pos rfl, found]
  simp only [← List.cons_append, List.length_append, Nat.add_sub_cancel_right, List.take_left]

/-! ### Lines -/

/-- A JSON text with line breaks of two kinds only. -/
def PlainBreaks (text : Str) : Prop :=
  ∀ c ∈ text, isLineBreak c = true → c = '\n' ∨ c = '\r'

/-- A text that `splitlines` cuts at no other break than its own, whatever line comes after it. -/
structure Block (body : Str) : Prop where
  plain : PlainBreaks body
  some_letter : body ≠ []
  last : ∀ c ∈ body.getLast?, isLineBreak c = false

theorem Block.tail {c : Char} {body : Str} (block : Block (c :: body)) (some_letter : body ≠ []) :
    Block body where
  plain := fun one inside => block.plain one (List.mem_cons_of_mem c inside)
  some_letter := some_letter
  last := by
    intro one ends
    refine block.last one ?_
    rw [List.getLast?_cons, List.getLast?_eq_getLast_of_ne_nil some_letter] at *
    exact ends

/-- A block does not end with a line break. -/
theorem Block.goes_on {c : Char} {body : Str} (block : Block (c :: body))
    (ends : isLineBreak c = true) : body ≠ [] := by
  rintro rfl
  rw [block.last c rfl] at ends
  cases ends

theorem splitlines_pair (rest : Str) :
    splitlines ('\r' :: '\n' :: rest) = [] :: splitlines rest := rfl

/-- A letter goes to the front of the first line, unless it ends a line itself. -/
theorem splitlines_cons {c : Char} {rest : Str} (no_pair : c = '\r' → rest.head? ≠ some '\n') :
    splitlines (c :: rest) =
      if isLineBreak c then [] :: splitlines rest
      else (c :: (splitlines rest).headD []) :: (splitlines rest).tail := by
  rw [splitlines]
  · refine if_congr (by simp [isLineBreak]) rfl ?_
    cases splitlines rest <;> rfl
  · rintro later rfl rfl
    exact no_pair rfl rfl

theorem splitlines_break {c : Char} {rest : Str} (ends : isLineBreak c = true)
    (no_pair : c = '\r' → rest.head? ≠ some '\n') :
    splitlines (c :: rest) = [] :: splitlines rest := by
  rw [splitlines_cons no_pair, if_pos ends]

theorem splitlines_letter {c : Char} {rest line : Str} {more : List Str}
    (letter : isLineBreak c = false) (split : splitlines rest = line :: more) :
    splitlines (c :: rest) = (c :: line) :: more := by
  have no_pair : c = '\r' → rest.head? ≠ some '\n' := by
    rintro rfl
    cases letter
  rw [splitlines_cons no_pair, if_neg (Bool.eq_false_iff.mp letter), split]
  rfl

theorem splitlines_last {c : Char} (letter : isLineBreak c = false) : splitlines [c] = [[c]] := by
  have no_pair : c = '\r' → ([] : Str).head? ≠ some '\n' := fun _ => by simp
  rw [splitlines_cons no_pair, if_neg (Bool.eq_false_iff.mp letter)]
  rfl

theorem universalNewlines_letter {c : Char} (letter : c ≠ '\r') (rest : Str) :
    universalNewlines (c :: rest) = c :: universalNewlines rest := by
  conv_lhs => unfold universalNewlines
  split
  · rename_i same
    exact absurd (List.cons.inj same).1 letter
  · rename_i same
    exact absurd (List.cons.inj same).1 letter
  · rename_i same
    obtain ⟨rfl, rfl⟩ := List.cons.inj same
    rfl
  · rename_i same
    cases same

theorem keepsLetters_universalNewlines : KeepsLetters universalNewlines where
  letter := universalNewlines_letter
  blanks := by
    intro text some_letter
    fun_induction universalNewlines text with
    | case1 rest ih =>
        have step : skipBlanks ('\r' :: '\n' :: rest) = skipBlanks rest :=
          @skipBlanks_blanks ['\r', '\n'] (forall_of_all (by decide)) rest
        rw [step] at some_letter ⊢
        rw [← ih some_letter]
        exact @skipBlanks_blanks ['\n'] (forall_of_all (by decide)) (universalNewlines rest)
    | case2 rest _ ih =>
        have step : skipBlanks ('\r' :: rest) = skipBlanks rest :=
          @skipBlanks_blanks ['\r'] (forall_of_all (by decide)) rest
        rw [step] at some_letter ⊢
        rw [← ih some_letter]
        exact @skipBlanks_blanks ['\n'] (forall_of_all (by decide)) (universalNewlines rest)
    | case3 letter rest _ not_return ih =>
        by_cases blank : isBlank letter = true
        · have step : ∀ rest, skipBlanks (letter :: rest) = skipBlanks rest := fun rest =>
            @skipBlanks_blanks [letter] (by simpa using blank) rest
          rw [step] at some_letter ⊢
          rw [step, ih some_letter]
        · have solid := Bool.eq_false_iff.mpr blank
          rw [skipBlanks_solid solid, skipBlanks_solid solid,
            universalNewlines_letter not_return]
    | case4 => exact absurd rfl some_letter

theorem intercalate_cons (line : Str) {lines : List Str} (some_line : lines ≠ []) :
    ['\n'].intercalate (line :: lines) = line ++ '\n' :: ['\n'].intercalate lines := by
  cases lines with
  | nil => exact absurd rfl some_line
  | cons next lines => rfl

/-- Lines that end before a line break are split as they are alone, and joined again they are the
text with its line breaks made one kind. -/
theorem splitlines_cut {body : Str} (block : Block body) (rest : Str) :
    splitlines (body ++ '\n' :: rest) = splitlines body ++ splitlines rest ∧
      ['\n'].intercalate (splitlines body) = universalNewlines body ∧ splitlines body ≠ [] := by
  fun_induction universalNewlines body with
  | case1 tail ih =>
      have after := block.tail (List.cons_ne_nil _ _)
      obtain ⟨cut, joined, some_line⟩ := ih (after.tail (after.goes_on rfl))
      rw [List.cons_append, List.cons_append, splitlines_pair, splitlines_pair, cut,
        intercalate_cons [] some_line, joined]
      exact ⟨rfl, rfl, List.cons_ne_nil _ _⟩
  | case2 tail not_pair ih =>
      have some_tail := block.goes_on rfl
      obtain ⟨cut, joined, some_line⟩ := ih (block.tail some_tail)
      have apart : tail.head? ≠ some '\n' := by
        intro pair
        obtain ⟨later, shape⟩ := List.head?_eq_some_iff.mp pair
        exact not_pair later shape
      have apart' : (tail ++ '\n' :: rest).head? ≠ some '\n' := by
        rw [List.head?_append_of_ne_nil _ some_tail]
        exact apart
      rw [List.cons_append, splitlines_break rfl fun _ => apart',
        splitlines_break rfl fun _ => apart, cut, intercalate_cons [] some_line, joined]
      exact ⟨rfl, rfl, List.cons_ne_nil _ _⟩
  | case3 letter tail _ not_return ih =>
      by_cases ends : isLineBreak letter = true
      · have newline : letter = '\n' :=
          (block.plain letter List.mem_cons_self ends).resolve_right not_return
        obtain ⟨cut, joined, some_line⟩ := ih (block.tail (block.goes_on ends))
        rw [List.cons_append, splitlines_break ends fun same => absurd same not_return,
          splitlines_break ends fun same => absurd same not_return, cut,
          intercalate_cons [] some_line, joined, newline]
        exact ⟨rfl, rfl, List.cons_ne_nil _ _⟩
      · have is_letter := Bool.eq_false_iff.mpr ends
        by_cases some_tail : tail = []
        · subst some_tail
          have behind : splitlines ('\n' :: rest) = [] :: splitlines rest :=
            splitlines_break rfl fun same => by cases same
          rw [List.cons_append, List.nil_append, splitlines_letter is_letter behind,
            splitlines_last is_letter]
          exact ⟨rfl, rfl, List.cons_ne_nil _ _⟩
        · obtain ⟨cut, joined, some_line⟩ := ih (block.tail some_tail)
          obtain ⟨line, more, shape⟩ := List.exists_cons_of_ne_nil some_line
          rw [shape] at cut joined
          rw [List.cons_append, splitlines_letter is_letter cut, splitlines_letter is_letter shape,
            ← joined]
          refine ⟨rfl, ?_, List.cons_ne_nil _ _⟩
          cases more <;> rfl
  | case4 => exact absurd rfl block.some_letter

theorem splitlines_line {line : Str} (letters : ∀ c ∈ line, isLineBreak c = false)
    (some_letter : line ≠ []) : splitlines line = [line] := by
  induction line with
  | nil => exact absurd rfl some_letter
  | cons c line ih =>
      by_cases single : line = []
      · rw [single]
        exact splitlines_last (letters c List.mem_cons_self)
      · exact splitlines_letter (letters c List.mem_cons_self)
          (ih (fun one inside => letters one (List.mem_cons_of_mem c inside)) single)

/-! ### Fences -/

/-- The object between the lines of a code fence. -/
def fence (language body : Str) : Str :=
  "```".toList ++ language ++ '\n' :: (body ++ '\n' :: "```".toList)

theorem fence_lines {language body : Str} (one_line : ∀ c ∈ language, isLineBreak c = false)
    (block : Block body) :
    splitlines (fence language body) =
      ("```".toList ++ language) :: (splitlines body ++ ["```".toList]) := by
  have letters : ∀ c ∈ "```".toList ++ language, isLineBreak c = false := by
    intro c inside
    rcases List.mem_append.mp inside with inside | inside
    · have ticks : ∀ c ∈ "```".toList, isLineBreak c = false := forall_of_all (by decide)
      exact ticks c inside
    · exact one_line c inside
  have opening : Block ("```".toList ++ language) := by
    refine ⟨fun c inside ends => ?_, by simp, fun c ends => letters c (List.mem_of_getLast? ends)⟩
    rw [letters c inside] at ends
    cases ends
  rw [fence, (splitlines_cut opening _).1, splitlines_line letters (by simp),
    (splitlines_cut block _).1]
  rfl

theorem fence_ends (language body : Str) :
    fence language body =
      ("```".toList ++ language ++ '\n' :: (body ++ ['\n'])) ++ "```".toList := by
  simp only [fence, List.append_assoc, List.cons_append, List.nil_append]

theorem strip_fence (language body : Str) : strip (fence language body) = fence language body := by
  refine strip_eq_self ⟨?_, ?_⟩
  · intro c first
    cases first
    rfl
  · intro c ends
    rw [fence_ends, List.getLast?_append] at ends
    cases ends
    rfl

theorem closed_fence (language body : Str) :
    Impact.fenced (fence language body) = true := by
  rw [Impact.fenced, Bool.and_eq_true, List.isPrefixOf_iff_prefix, List.isSuffixOf_iff_suffix]
  refine ⟨⟨language ++ '\n' :: (body ++ '\n' :: "```".toList), rfl⟩, ?_⟩
  rw [fence_ends]
  exact List.suffix_append _ _

theorem open_fence {language body : Str} (one_line : ∀ c ∈ language, isLineBreak c = false)
    (block : Block body) :
    Proposals.fenced (fence language body) = true := by
  rw [Proposals.fenced, Bool.and_eq_true, List.isPrefixOf_iff_prefix,
    fence_lines one_line block]
  refine ⟨⟨language ++ '\n' :: (body ++ '\n' :: "```".toList), rfl⟩, ?_⟩
  rw [← List.cons_append, List.getLast?_concat]
  rfl

/-- A value begins neither with a space nor with a tick. -/
theorem value_begins {c : Char} {text rest : Str} {value : Value}
    (read : Reads (.value value) (c :: text) rest) : isSpace c = false ∧ c ∉ "```".toList := by
  cases read with
  | scalar read =>
      obtain ⟨lexeme, shape, is_lexeme⟩ := readScalar_lexeme read
      cases lexeme with
      | nil => exact absurd rfl is_lexeme.some_letter
      | cons d lexeme =>
          obtain ⟨rfl, _⟩ := List.cons.inj shape
          have lettered := is_lexeme.lettered c List.mem_cons_self
          refine ⟨?_, ?_⟩
          · have code := lettered.code
            simp [isSpace]
            omega
          · intro tick
            have plain : ∀ other ∈ "```".toList, other.isAlphanum = false ∧
                other ∉ ['+', '-', '.'] := forall_of_all (by decide)
            exact lettered.apart (plain c tick).1 (plain c tick).2 rfl
  | text | noItems | list | noFields | dict => exact ⟨rfl, by decide⟩

theorem isSpace_of_isBlank {c : Char} (blank : isBlank c = true) : isSpace c = true := by
  simp only [isBlank, Bool.or_eq_true, decide_eq_true_eq] at blank
  rcases blank with ((rfl | rfl) | rfl) | rfl <;> rfl

theorem dropWhile_skipBlanks (text : Str) :
    (skipBlanks text).dropWhile isSpace = text.dropWhile isSpace := by
  induction text with
  | nil => rfl
  | cons c text ih =>
      by_cases blank : isBlank c = true
      · have step : skipBlanks (c :: text) = skipBlanks text :=
          @skipBlanks_blanks [c] (by simpa using blank) text
        rw [step, ih, List.dropWhile_cons, if_pos (isSpace_of_isBlank blank)]
      · rw [skipBlanks_solid (Bool.eq_false_iff.mpr blank)]

/-- A fenced reply is no JSON text. -/
theorem loads_fence {reply language body : Str} (stripped : strip reply = fence language body) :
    loads reply = none := by
  cases read : loads reply with
  | none => rfl
  | some value =>
      obtain ⟨_, rest, reads, _⟩ := loads_iff.mp read
      cases shape : skipBlanks reply with
      | nil =>
          rw [shape] at reads
          exact absurd reads.shorter (Nat.not_lt_zero _)
      | cons c later =>
          rw [shape] at reads
          obtain ⟨solid, no_tick⟩ := value_begins reads
          have front := dropWhile_skipBlanks reply
          rw [shape, List.dropWhile_cons, solid, if_neg Bool.false_ne_true] at front
          have begins : strip reply <+: reply.dropWhile isSpace := by
            rw [strip, ← List.reverse_suffix, List.reverse_reverse]
            exact List.dropWhile_suffix isSpace
          rw [stripped, ← front] at begins
          obtain ⟨more, same⟩ := begins
          have tick := (List.cons.inj same).1
          rw [← tick] at no_tick
          exact absurd (by decide) no_tick

section Object

variable {body : Str} {fields : List (Text × Value)}

theorem object_ends {text : Str} (read : Reads (.value (.dict fields)) text []) :
    text ≠ [] ∧ text.head? = some '\x7b' ∧ text.getLast? = some '\x7d' := by
  obtain ⟨opens, front, shape⟩ := object_shape read
  refine ⟨?_, opens, ?_⟩
  · rintro rfl
    cases opens
  · rw [← shape, List.getLast?_concat]

theorem object_block (object : rawDecode body = some (.dict fields, []))
    (plain : PlainBreaks body) : Block body := by
  obtain ⟨some_letter, _, closes⟩ := object_ends (rawDecode_iff.mp object)
  refine ⟨plain, some_letter, fun c ends => ?_⟩
  rw [closes] at ends
  cases ends
  rfl

theorem strip_object {text : Str} (read : Reads (.value (.dict fields)) text []) :
    strip text = text := by
  obtain ⟨_, opens, closes⟩ := object_ends read
  refine strip_eq_self ⟨?_, ?_⟩
  · intro c first
    rw [opens] at first
    cases first
    rfl
  · intro c last
    rw [closes] at last
    cases last
    rfl

/-- An object by itself is a JSON text. -/
theorem loads_object {text : Str} (read : Reads (.value (.dict fields)) text []) :
    loads text = some (.dict fields) := by
  obtain ⟨_, opens, _⟩ := object_ends read
  obtain ⟨later, rfl⟩ := List.head?_eq_some_iff.mp opens
  refine loads_iff.mpr ⟨by simp, [], ?_, rfl⟩
  rw [skipBlanks_solid rfl]
  exact read

theorem readReply_prose (object : rawDecode body = some (.dict fields, [])) {prose tail : Str}
    {fenced : Str → Bool} (plain : '\x7b' ∉ prose)
    (alone : ∀ value, loads (prose ++ (body ++ tail)) = some value → value = .dict fields)
    (no_fence : fenced (strip (prose ++ (body ++ tail))) = false) :
    readReply fenced (prose ++ (body ++ tail)) = some (.dict fields) := by
  have read := rawDecode_iff.mp object
  unfold readReply
  split
  · rename_i value whole
    rw [alone value whole]
  · rw [extractObject, no_fence, if_neg (fun both => Bool.false_ne_true both.1),
      firstObject_prose plain, firstObject_object (object_ends read).2.1 object nofun]
    exact loads_object read

theorem readReply_fence (object : rawDecode body = some (.dict fields, [])) {reply language : Str}
    {fenced : Str → Bool} (stripped : strip reply = fence language body)
    (one_line : ∀ c ∈ language, isLineBreak c = false) (plain : PlainBreaks body)
    (is_fence : fenced (fence language body) = true) :
    readReply fenced reply = some (.dict fields) := by
  have read := rawDecode_iff.mp object
  have block := object_block object plain
  obtain ⟨_, joined, some_line⟩ := splitlines_cut block []
  have inside := read.changed keepsLetters_universalNewlines nofun
  have three : 3 ≤ (splitlines (fence language body)).length := by
    have := List.length_pos_of_ne_nil some_line
    rw [fence_lines one_line block]
    simp only [List.length_cons, List.length_append, List.length_nil]
    omega
  rw [readReply, loads_fence stripped]
  simp only [extractObject, stripped]
  rw [if_pos ⟨is_fence, three⟩, fence_lines one_line block,
    List.drop_one, List.tail_cons, List.dropLast_concat, joined, Option.bind_some]
  have same : universalNewlines [] = [] := rfl
  rw [same] at inside
  rw [strip_object inside]
  exact loads_object inside

end Object

def lowRisk : List (Text × Value) :=
  [(points "narrative".toList, .text (points "low risk".toList))]

def lowRiskText : Str := dumps [' '] [' '] (.dict lowRisk)

theorem lowRisk_decoded : rawDecode lowRiskText = some (.dict lowRisk, []) := by
  have storable : Storable (.dict lowRisk) :=
    ⟨List.nodup_singleton _, unpaired_points _, unpaired_points _, trivial⟩
  have blank : ∀ c ∈ [' '], isBlank c = true := forall_of_all (by decide)
  have decoded := @rawDecode_dumps [' '] [' '] blank blank _ storable [] ended_nil
  rw [List.append_nil] at decoded
  exact decoded

end SeMentor.Llm
