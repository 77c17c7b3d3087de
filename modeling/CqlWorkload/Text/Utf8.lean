import CqlWorkload.Failure

/-!
# Decoding bytes

Files are bytes; their text is read as UTF-8, every line break becoming a line
feed.  Bytes that are no UTF-8 are reported with the place of the first fault.
-/

namespace CqlWorkload.Utf8

/-- May this byte follow the first byte of a character? -/
def isFollowing (b : Nat) : Bool := 0x80 ≤ b && b < 0xc0

/-- What stands at the front of some bytes. -/
inductive Front
  | char (c : Char) (length : Nat)
  /-- A first byte that is none, or a faulty byte behind so many good ones. -/
  | badStart
  | badFollowing (length : Nat)
  | endedEarly

/-- May `b` be the second byte behind the first byte `a`? -/
def isSecond (a b : Nat) : Bool :=
  isFollowing b &&
    !(a == 0xe0 && b < 0xa0) && !(a == 0xed && 0xa0 ≤ b) &&
    !(a == 0xf0 && b < 0x90) && !(a == 0xf4 && 0x90 ≤ b)

/-- The character at the front of some bytes, the first of which is `a`. -/
def front (a : Nat) (rest : List Nat) : Front :=
  if a < 0x80 then .char (Char.ofNat a) 1
  else if a < 0xc2 || 0xf5 ≤ a then .badStart
  else
    match rest with
    | [] => .endedEarly
    | b :: rest =>
      if !isSecond a b then .badFollowing 1
      else if a < 0xe0 then .char (Char.ofNat ((a - 0xc0) * 64 + (b - 0x80))) 2
      else
        match rest with
        | [] => .endedEarly
        | c :: rest =>
          if !isFollowing c then .badFollowing 2
          else if a < 0xf0 then
            .char (Char.ofNat (((a - 0xe0) * 64 + (b - 0x80)) * 64 + (c - 0x80))) 3
          else
            match rest with
            | [] => .endedEarly
            | d :: _ =>
              if !isFollowing d then .badFollowing 3
              else
                .char (Char.ofNat
                  ((((a - 0xf0) * 64 + (b - 0x80)) * 64 + (c - 0x80)) * 64 + (d - 0x80))) 4

/-- The characters of bytes that begin at a position; `skip` bytes belong to the
character before. -/
def charsFrom (position skip : Nat) : List Nat → Except DecodingFault (List Char)
  | [] => .ok []
  | a :: rest =>
    match skip with
    | skip + 1 => charsFrom (position + 1) skip rest
    | 0 =>
      match front a rest with
      | .char c length => (c :: ·) <$> charsFrom (position + 1) (length - 1) rest
      | .badStart => .error ⟨a, position, position, "invalid start byte"⟩
      | .badFollowing length =>
        .error ⟨a, position, position + length - 1, "invalid continuation byte"⟩
      | .endedEarly =>
        .error ⟨a, position, position + rest.length, "unexpected end of data"⟩

/-- Every line break as a line feed. -/
def unifyBreaks : List Char → List Char
  | [] => []
  | '\r' :: '\n' :: rest => '\n' :: unifyBreaks rest
  | '\r' :: rest => '\n' :: unifyBreaks rest
  | c :: rest => c :: unifyBreaks rest

end CqlWorkload.Utf8

namespace CqlWorkload

/-- What a file holds: a text, or bytes that may be the text of one. -/
inductive Content
  | text (s : String)
  | bytes (bs : List Nat)
  deriving DecidableEq

namespace Content

def read : Content → Except Failure String
  | .text s => .ok (String.ofList (Utf8.unifyBreaks s.toList))
  | .bytes bs =>
    match Utf8.charsFrom 0 0 bs with
    | .ok cs => .ok (String.ofList (Utf8.unifyBreaks cs))
    | .error fault => .error (.undecodable fault)

def append : Content → String → Content
  | .text s, more => .text (s ++ more)
  | .bytes bs, more => .bytes (bs ++ more.toUTF8.toList.map (·.toNat))

end Content
end CqlWorkload
