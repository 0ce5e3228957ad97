import VolBacktest.Json.Tree
import VolBacktest.Proofs.Json.Tokens

/-!
# White space between tokens

White space ends a token and is otherwise not seen. Two texts that are the same but for the white space
between their tokens are cut into the same tokens, so they hold the same tree.
-/

namespace VolBacktest.Json

/-- The texts differ in white space between tokens only. A token stands in both texts in the same
characters, and in both it goes no further: without the space in `1 2`, one token would become of two. -/
inductive Respaced : List Char → List Char → Prop where
  | same (text : List Char) : Respaced text text
  | space_left {c : Char} {text other : List Char} (space : Token.isSpace c = true)
      (rest : Respaced text other) : Respaced (c :: text) other
  | space_right {c : Char} {text other : List Char} (space : Token.isSpace c = true)
      (rest : Respaced text other) : Respaced text (c :: other)
  | token {c : Char} {more text other : List Char} {token : Token}
      (visible : Token.isSpace c = false) (here : Token.scan c (more ++ text) = (token, text))
      (there : Token.scan c (more ++ other) = (token, other)) (rest : Respaced text other) :
      Respaced (c :: (more ++ text)) (c :: (more ++ other))

theorem Token.ofText_space {c : Char} (space : isSpace c = true) (text : List Char) :
    ofText (c :: text) = ofText text := by
  rw [ofText, List.length_cons, sequence, if_pos space]
  rfl

namespace Respaced

theorem tokens_eq {text other : List Char} (respaced : Respaced text other) :
    Token.ofText text = Token.ofText other := by
  induction respaced with
  | same => rfl
  | space_left space _ ih => rw [Token.ofText_space space, ih]
  | space_right space _ ih => rw [Token.ofText_space space, ih]
  | token visible here there _ ih =>
      rw [Token.ofText_cons visible here, Token.ofText_cons visible there, ih]

theorem document_eq {text other : String} (respaced : Respaced text.toList other.toList) :
    Document.ofText text = Document.ofText other := by
  rw [Document.ofText, Document.ofText, respaced.tokens_eq]

end Respaced

end VolBacktest.Json
