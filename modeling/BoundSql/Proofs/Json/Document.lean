import BoundSql.Json.Reader
import BoundSql.Proofs.Json.Token

/-!
# The grammar of JSON documents

Which tokens a document consists of is a function of it (`Source.tokens`), and so a text spells a
document when it spells these tokens, with white space between them or without. The reader accepts
exactly the texts that spell a document, and finds this document (`Source.read?_eq_some_iff`).

The reader goes over the tokens once and keeps the arrays and objects that are still open. What it
has read by then is what its position says (`Position.read`): each token adds itself, and nothing is
lost. From this follows that nothing else is accepted. That every document is accepted is an
induction over the document, inside any frames.
-/

namespace BoundSql.Json

/-! ## Spelling -/

mutual

/-- The tokens of a document. -/
def Source.tokens : Source → List Token
  | .null => [.null]
  | .bool b => [.bool b]
  | .number n => [.number n]
  | .string pieces => [.string pieces]
  | .array items => .openBracket :: (itemTokens items ++ [.closeBracket])
  | .object members => .openBrace :: (memberTokens members ++ [.closeBrace])

/-- Items with commas between them. -/
def itemTokens : List Source → List Token
  | [] => []
  | [item] => item.tokens
  | item :: next :: rest => item.tokens ++ .comma :: itemTokens (next :: rest)

/-- Members with commas between them. -/
def memberTokens : List (List Piece × Source) → List Token
  | [] => []
  | [(name, value)] => .string name :: .colon :: value.tokens
  | (name, value) :: next :: rest =>
    .string name :: .colon :: value.tokens ++ .comma :: memberTokens (next :: rest)

end

/-- A text spells a document: it spells the document's tokens. -/
def Source.Spelled (s : Source) (cs : List Char) : Prop :=
  Spaced s.tokens cs

/-! ## Reading what is spelled -/

theorem Source.tokens_head (s : Source) : ∃ t ts, s.tokens = t :: ts ∧ t ≠ .closeBracket := by
  cases s <;> exact ⟨_, _, Source.tokens.eq_def _, nofun⟩

theorem memberTokens_head (name : List Piece) (value : Source)
    (members : List (List Piece × Source)) :
    ∃ ts, memberTokens ((name, value) :: members) = .string name :: ts := by
  cases members with
  | nil => exact ⟨_, memberTokens.eq_2 _ _⟩
  | cons => exact ⟨_, memberTokens.eq_3 _ _ _ _⟩

theorem itemTokens_head (item : Source) (items : List Source) :
    ∃ t ts, itemTokens (item :: items) = t :: ts ∧ t ≠ .closeBracket := by
  obtain ⟨t, ts, tokens, other⟩ := item.tokens_head
  cases items with
  | nil => exact ⟨t, ts, by rw [itemTokens, tokens], other⟩
  | cons => exact ⟨t, _, by rw [itemTokens, tokens, List.cons_append], other⟩

/-- The first item of an array is read like any further one. -/
theorem run_inArray (item : Source) (items : List Source) (rest : List Token)
    (frames : List Frame) :
    (Position.inArray frames).run (itemTokens (item :: items) ++ rest) =
      (Position.beforeValue (.array [] :: frames)).run (itemTokens (item :: items) ++ rest) := by
  obtain ⟨t, ts, tokens, other⟩ := itemTokens_head item items
  rw [tokens, List.cons_append, Position.run, Position.run, Position.next, Position.next]
  exact other

/-- The first member of an object is read like any further one. -/
theorem run_inObject (member : List Piece × Source) (members : List (List Piece × Source))
    (rest : List Token) (frames : List Frame) :
    (Position.inObject frames).run (memberTokens (member :: members) ++ rest) =
      (Position.beforeName [] frames).run (memberTokens (member :: members) ++ rest) := by
  obtain ⟨ts, tokens⟩ := memberTokens_head member.1 member.2 members
  rw [tokens]
  rfl

mutual

/-- The tokens of a document lead from in front of a value to behind this document. -/
theorem run_value (s : Source) (rest : List Token) (frames : List Frame) :
    (Position.beforeValue frames).run (s.tokens ++ rest) =
      (Position.afterValue s frames).run rest :=
  match s with
  | .null => rfl
  | .bool _ => rfl
  | .number _ => rfl
  | .string _ => rfl
  | .array [] => rfl
  | .array (item :: items) => by
    rw [Source.tokens, List.cons_append, List.append_assoc, List.singleton_append]
    exact (run_inArray item items _ frames).trans
      (run_items (item :: items) (List.cons_ne_nil _ _) [] rest frames)
  | .object [] => rfl
  | .object (member :: members) => by
    rw [Source.tokens, List.cons_append, List.append_assoc, List.singleton_append]
    exact (run_inObject member members _ frames).trans
      (run_members (member :: members) (List.cons_ne_nil _ _) [] rest frames)

theorem run_items (items : List Source) (some : items ≠ []) (before : List Source)
    (rest : List Token) (frames : List Frame) :
    (Position.beforeValue (.array before :: frames)).run
        (itemTokens items ++ .closeBracket :: rest) =
      (Position.afterValue (.array (before ++ items)) frames).run rest :=
  match items with
  | [] => absurd rfl some
  | [item] => by
    rw [itemTokens, run_value item]
    rfl
  | item :: next :: items => by
    have later := run_items (next :: items) (List.cons_ne_nil _ _) (before ++ [item]) rest frames
    rw [List.append_assoc, List.singleton_append] at later
    rw [itemTokens, List.append_assoc, List.cons_append, run_value item, ← later]
    rfl

theorem run_members (members : List (List Piece × Source)) (some : members ≠ [])
    (before : List (List Piece × Source)) (rest : List Token) (frames : List Frame) :
    (Position.beforeName before frames).run (memberTokens members ++ .closeBrace :: rest) =
      (Position.afterValue (.object (before ++ members)) frames).run rest :=
  match members with
  | [] => absurd rfl some
  | [(name, value)] => by
    rw [memberTokens]
    exact run_value value (.closeBrace :: rest) (.object before name :: frames)
  | (name, value) :: next :: members => by
    have later := run_members (next :: members) (List.cons_ne_nil _ _) (before ++ [(name, value)])
      rest frames
    rw [List.append_assoc, List.singleton_append] at later
    rw [memberTokens, ← later, List.append_assoc, List.cons_append]
    exact run_value value _ (.object before name :: frames)

end

/-! ## What has been read -/

/-- The tokens of items with a comma behind each. -/
def listedTokens (items : List Source) : List Token :=
  items.flatMap fun item => item.tokens ++ [.comma]

def listedMemberTokens (members : List (List Piece × Source)) : List Token :=
  members.flatMap fun member => .string member.1 :: .colon :: (member.2.tokens ++ [.comma])

theorem itemTokens_cons (item : Source) {items : List Source} (some : items ≠ []) :
    itemTokens (item :: items) = item.tokens ++ .comma :: itemTokens items := by
  cases items with
  | nil => exact absurd rfl some
  | cons next rest => rw [itemTokens]

theorem memberTokens_cons (member : List Piece × Source) {members : List (List Piece × Source)}
    (some : members ≠ []) : memberTokens (member :: members) =
      .string member.1 :: .colon :: member.2.tokens ++ .comma :: memberTokens members := by
  cases members with
  | nil => exact absurd rfl some
  | cons next rest => rw [memberTokens]

theorem itemTokens_concat (items : List Source) (item : Source) :
    itemTokens (items ++ [item]) = listedTokens items ++ item.tokens := by
  induction items with
  | nil => rw [List.nil_append, itemTokens]; rfl
  | cons first rest ih =>
    rw [List.cons_append, itemTokens_cons first (List.concat_ne_nil item rest), ih]
    simp only [listedTokens, List.flatMap_cons, List.append_assoc, List.cons_append,
      List.nil_append]

theorem memberTokens_concat (members : List (List Piece × Source)) (name : List Piece)
    (value : Source) : memberTokens (members ++ [(name, value)]) =
      listedMemberTokens members ++ .string name :: .colon :: value.tokens := by
  induction members with
  | nil => rw [List.nil_append, memberTokens]; rfl
  | cons first rest ih =>
    rw [List.cons_append, memberTokens_cons first (List.concat_ne_nil _ rest), ih]
    simp only [listedMemberTokens, List.flatMap_cons, List.append_assoc, List.cons_append,
      List.nil_append]

/-- The tokens of an open array or object. -/
def Frame.tokens : Frame → List Token
  | .array before => .openBracket :: listedTokens before
  | .object before name => .openBrace :: (listedMemberTokens before ++ [.string name, .colon])

/-- The tokens of all that is open, outermost first. -/
def openTokens : List Frame → List Token
  | [] => []
  | frame :: frames => openTokens frames ++ frame.tokens

/-- The tokens that lead to a position. -/
def Position.read : Position → List Token
  | .beforeValue frames => openTokens frames
  | .inArray frames => openTokens frames ++ [.openBracket]
  | .inObject frames => openTokens frames ++ [.openBrace]
  | .beforeName before frames => openTokens frames ++ .openBrace :: listedMemberTokens before
  | .beforeColon before name frames =>
    openTokens frames ++ .openBrace :: (listedMemberTokens before ++ [.string name])
  | .afterValue value frames => openTokens frames ++ value.tokens

theorem read_openValue {frames : List Frame} {token : Token} {position : Position}
    (step : Position.openValue frames token = some position) :
    position.read = openTokens frames ++ [token] := by
  cases token <;> cases step <;> rfl

/-- A token that a position admits is read behind the tokens before it. -/
theorem Position.read_next {position position' : Position} {token : Token}
    (step : position.next token = some position') : position'.read = position.read ++ [token] := by
  fun_cases Position.next position token with
  | case1 frames => exact read_openValue step
  | case2 frames => cases step; simp [read, Source.tokens, itemTokens]
  | case3 frames token other =>
    rw [next] at step
    · exact read_openValue step
    · exact other
  | case4 frames => cases step; simp [read, Source.tokens, memberTokens]
  | case5 frames name => cases step; simp [read, listedMemberTokens]
  | case6 before frames name => cases step; simp [read]
  | case7 before name frames => cases step; simp [read, openTokens, Frame.tokens]
  | case8 value before frames =>
    cases step; simp [read, openTokens, Frame.tokens, listedTokens]
  | case9 value before frames =>
    cases step
    simp [read, openTokens, Frame.tokens, Source.tokens, itemTokens_concat]
  | case10 value before name frames =>
    cases step; simp [read, openTokens, Frame.tokens, listedMemberTokens]
  | case11 value before name frames =>
    cases step
    simp [read, openTokens, Frame.tokens, Source.tokens, memberTokens_concat]
  | case12 =>
    rw [next] at step
    · cases step
    all_goals assumption

theorem Position.read_run {position position' : Position} {tokens : List Token}
    (run : position.run tokens = some position') : position'.read = position.read ++ tokens := by
  induction tokens generalizing position with
  | nil =>
    cases run
    exact (List.append_nil _).symm
  | cons token rest ih =>
    rw [Position.run] at run
    split at run
    · next between step =>
      rw [ih run, read_next step, List.append_assoc, List.singleton_append]
    · cases run

/-! ## The reader and the grammar -/

theorem run_eq_some_iff {ts : List Token} {s : Source} :
    (Position.beforeValue []).run ts = some (.afterValue s []) ↔ ts = s.tokens := by
  constructor
  · intro run
    exact (Position.read_run run).symm
  · rintro rfl
    have run := run_value s [] []
    rwa [List.append_nil] at run

/-! ### Numbers in documents -/

/-- Tokens behind one that is no number. -/
theorem Apart.cons {t : Token} {ts : List Token} (other : t.isNumber = false) (apart : Apart ts) :
    Apart (t :: ts) := by
  refine List.isChain_cons.2 ⟨fun u _ number => ?_, apart⟩
  rw [other] at number
  cases number

theorem Apart.single (t : Token) : Apart [t] :=
  List.isChain_singleton t

/-- Tokens in front of one that is no number. -/
theorem Apart.append_cons {t : Token} {ts us : List Token} (first : Apart ts)
    (other : t.isNumber = false) (second : Apart us) : Apart (ts ++ t :: us) := by
  refine List.isChain_append.2 ⟨first, second.cons other, ?_⟩
  rintro _ _ _ ⟨⟩ _
  exact other

mutual

theorem Source.tokens_apart (s : Source) : Apart s.tokens :=
  match s with
  | .null | .bool _ | .number _ | .string _ => Apart.single _
  | .array items => .cons rfl ((itemTokens_apart items).append_cons rfl List.isChain_nil)
  | .object members => .cons rfl ((memberTokens_apart members).append_cons rfl List.isChain_nil)

theorem itemTokens_apart (items : List Source) : Apart (itemTokens items) :=
  match items with
  | [] => List.isChain_nil
  | [item] => item.tokens_apart
  | item :: next :: rest =>
    item.tokens_apart.append_cons rfl (itemTokens_apart (next :: rest))

theorem memberTokens_apart (members : List (List Piece × Source)) : Apart (memberTokens members) :=
  match members with
  | [] => List.isChain_nil
  | [(_, value)] => .cons rfl (.cons rfl value.tokens_apart)
  | (_, value) :: next :: rest =>
    .cons rfl (.cons rfl
      (value.tokens_apart.append_cons rfl (memberTokens_apart (next :: rest))))

end

/-- The reader accepts exactly the texts that spell a document, and answers this document. -/
theorem Source.read?_eq_some_iff {cs : List Char} {s : Source} :
    Source.read? cs = some s ↔ s.Spelled cs := by
  unfold Source.read? Source.Spelled
  rw [← tokens?_eq_some_iff s.tokens_apart]
  constructor
  · intro read
    split at read
    · next value run =>
      cases read
      obtain ⟨ts, tokens, run⟩ := Option.bind_eq_some_iff.1 run
      rw [tokens, run_eq_some_iff.1 run]
    · cases read
  · intro tokens
    rw [tokens, Option.bind_some, run_eq_some_iff.2 rfl]

end BoundSql.Json
