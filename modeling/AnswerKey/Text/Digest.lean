import AnswerKey.Text.Utf8

namespace AnswerKey.Text.Digest

def roundConstants : List UInt32 := [
  0x428a2f98, 0x71374491, 0xb5c0fbcf, 0xe9b5dba5, 0x3956c25b, 0x59f111f1, 0x923f82a4, 0xab1c5ed5,
  0xd807aa98, 0x12835b01, 0x243185be, 0x550c7dc3, 0x72be5d74, 0x80deb1fe, 0x9bdc06a7, 0xc19bf174,
  0xe49b69c1, 0xefbe4786, 0x0fc19dc6, 0x240ca1cc, 0x2de92c6f, 0x4a7484aa, 0x5cb0a9dc, 0x76f988da,
  0x983e5152, 0xa831c66d, 0xb00327c8, 0xbf597fc7, 0xc6e00bf3, 0xd5a79147, 0x06ca6351, 0x14292967,
  0x27b70a85, 0x2e1b2138, 0x4d2c6dfc, 0x53380d13, 0x650a7354, 0x766a0abb, 0x81c2c92e, 0x92722c85,
  0xa2bfe8a1, 0xa81a664b, 0xc24b8b70, 0xc76c51a3, 0xd192e819, 0xd6990624, 0xf40e3585, 0x106aa070,
  0x19a4c116, 0x1e376c08, 0x2748774c, 0x34b0bcb5, 0x391c0cb3, 0x4ed8aa4a, 0x5b9cca4f, 0x682e6ff3,
  0x748f82ee, 0x78a5636f, 0x84c87814, 0x8cc70208, 0x90befffa, 0xa4506ceb, 0xbef9a3f7, 0xc67178f2]

def rotateRight (x n : UInt32) : UInt32 := (x >>> n) ||| (x <<< (32 - n))

def pad (message : Array UInt8) : Array UInt8 :=
  let zeros := (119 - message.size % 64) % 64
  let bits := 8 * message.size
  let length := (List.range 8).map fun i ↦ UInt8.ofNat (bits >>> (8 * (7 - i)))
  message ++ (0x80 :: (List.replicate zeros (0 : UInt8) ++ length)).toArray

def word (message : Array UInt8) (first : Nat) : UInt32 :=
  (List.range 4).foldl (fun w i ↦ (w <<< 8) ||| (message.getD (first + i) 0).toUInt32) 0

def schedule (message : Array UInt8) (start : Nat) : Array UInt32 :=
  let given := ((List.range 16).map fun i ↦ word message (start + 4 * i)).toArray
  (List.range 48).foldl (fun w i ↦
    let x := w.getD (i + 1) 0
    let y := w.getD (i + 14) 0
    let s0 := rotateRight x 7 ^^^ rotateRight x 18 ^^^ (x >>> 3)
    let s1 := rotateRight y 17 ^^^ rotateRight y 19 ^^^ (y >>> 10)
    w.push (w.getD i 0 + s0 + w.getD (i + 9) 0 + s1)) given

structure Registers where
  a : UInt32
  b : UInt32
  c : UInt32
  d : UInt32
  e : UInt32
  f : UInt32
  g : UInt32
  h : UInt32

def Registers.round (r : Registers) (constant word : UInt32) : Registers :=
  let s1 := rotateRight r.e 6 ^^^ rotateRight r.e 11 ^^^ rotateRight r.e 25
  let choice := (r.e &&& r.f) ^^^ (~~~r.e &&& r.g)
  let t1 := r.h + s1 + choice + constant + word
  let s0 := rotateRight r.a 2 ^^^ rotateRight r.a 13 ^^^ rotateRight r.a 22
  let majority := (r.a &&& r.b) ^^^ (r.a &&& r.c) ^^^ (r.b &&& r.c)
  ⟨t1 + (s0 + majority), r.a, r.b, r.c, r.d + t1, r.e, r.f, r.g⟩

def compress (message : Array UInt8) (state : Registers) (block : Nat) : Registers :=
  let words := schedule message (64 * block)
  let r := (roundConstants.zip words.toList).foldl (fun r (k, w) ↦ r.round k w) state
  ⟨state.a + r.a, state.b + r.b, state.c + r.c, state.d + r.d,
    state.e + r.e, state.f + r.f, state.g + r.g, state.h + r.h⟩

def start : Registers :=
  ⟨0x6a09e667, 0xbb67ae85, 0x3c6ef372, 0xa54ff53a, 0x510e527f, 0x9b05688c, 0x1f83d9ab, 0x5be0cd19⟩

def hexDigits (width : Nat) (n : Nat) : List Char :=
  ((List.range width).map fun i ↦ Nat.digitChar (n >>> (4 * i) % 16)).reverse

def ofText (text : List Char) : String :=
  let message := pad (encode text).data
  let r := (List.range (message.size / 64)).foldl (compress message) start
  .ofList ([r.a, r.b, r.c, r.d, r.e, r.f, r.g, r.h].flatMap fun w ↦ hexDigits 8 w.toNat)

end AnswerKey.Text.Digest
