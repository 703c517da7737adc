import ClassSkeleton.Unicode.Runs

namespace ClassSkeleton.Unicode

/-!
# Letters that differ in case

Simple case folding puts the letters that differ only in case into orbits of two to four.
Going round an orbit, every letter has a next one, and steps of equal width make runs.
-/

/-- Every `stride`th letter from `first` to `last` steps to the letter as far beyond `image`. -/
structure CaseStep where
  first : Nat
  last : Nat
  stride : Nat
  image : Nat

namespace CaseStep

def covers (s : CaseStep) (n : Nat) : Bool :=
  s.first ≤ n && n ≤ s.last && (n - s.first) % s.stride == 0

def ofWord? (word : String) : Option CaseStep :=
  match (word.splitOn ".").filterMap fun field => Text.number? 16 field.toList with
  | [first, last, stride, image] => some ⟨first, last, stride, image⟩
  | _ => none

/-- The steps `first.last.stride.image`, in hexadecimal. -/
def table : List String := [
  "41.5a.1.61 61.6a.1.41 6b.6b.1.212a 6c.72.1.4c 73.73.1.17f 74.7a.1.54 b5.b5.1.39c",
  "c0.d6.1.e0 d8.de.1.f8 df.df.1.1e9e e0.e4.1.c0 e5.e5.1.212b e6.f6.1.c6 f8.fe.1.d8",
  "ff.ff.1.178 100.12e.2.101 101.12f.2.100 132.136.2.133 133.137.2.132 139.147.2.13a",
  "13a.148.2.139 14a.176.2.14b 14b.177.2.14a 178.178.1.ff 179.17d.2.17a 17a.17e.2.179",
  "17f.17f.1.53 180.180.1.243 181.181.1.253 182.184.2.183 183.185.2.182 186.186.1.254",
  "187.187.1.188 188.188.1.187 189.18a.1.256 18b.18b.1.18c 18c.18c.1.18b 18e.18e.1.1dd",
  "18f.18f.1.259 190.190.1.25b 191.191.1.192 192.192.1.191 193.193.1.260 194.194.1.263",
  "195.195.1.1f6 196.196.1.269 197.197.1.268 198.198.1.199 199.199.1.198 19a.19a.1.23d",
  "19b.19b.1.a7dc 19c.19c.1.26f 19d.19d.1.272 19e.19e.1.220 19f.19f.1.275 1a0.1a4.2.1a1",
  "1a1.1a5.2.1a0 1a6.1a6.1.280 1a7.1a7.1.1a8 1a8.1a8.1.1a7 1a9.1a9.1.283 1ac.1ac.1.1ad",
  "1ad.1ad.1.1ac 1ae.1ae.1.288 1af.1af.1.1b0 1b0.1b0.1.1af 1b1.1b2.1.28a 1b3.1b5.2.1b4",
  "1b4.1b6.2.1b3 1b7.1b7.1.292 1b8.1b8.1.1b9 1b9.1b9.1.1b8 1bc.1bc.1.1bd 1bd.1bd.1.1bc",
  "1bf.1bf.1.1f7 1c4.1c5.1.1c5 1c6.1c6.1.1c4 1c7.1c8.1.1c8 1c9.1c9.1.1c7 1ca.1cb.1.1cb",
  "1cc.1cc.1.1ca 1cd.1db.2.1ce 1ce.1dc.2.1cd 1dd.1dd.1.18e 1de.1ee.2.1df 1df.1ef.2.1de",
  "1f1.1f2.1.1f2 1f3.1f3.1.1f1 1f4.1f4.1.1f5 1f5.1f5.1.1f4 1f6.1f6.1.195 1f7.1f7.1.1bf",
  "1f8.21e.2.1f9 1f9.21f.2.1f8 220.220.1.19e 222.232.2.223 223.233.2.222 23a.23a.1.2c65",
  "23b.23b.1.23c 23c.23c.1.23b 23d.23d.1.19a 23e.23e.1.2c66 23f.240.1.2c7e 241.241.1.242",
  "242.242.1.241 243.243.1.180 244.244.1.289 245.245.1.28c 246.24e.2.247 247.24f.2.246",
  "250.250.1.2c6f 251.251.1.2c6d 252.252.1.2c70 253.253.1.181 254.254.1.186 256.257.1.189",
  "259.259.1.18f 25b.25b.1.190 25c.25c.1.a7ab 260.260.1.193 261.261.1.a7ac 263.263.1.194",
  "264.264.1.a7cb 265.265.1.a78d 266.266.1.a7aa 268.268.1.197 269.269.1.196 26a.26a.1.a7ae",
  "26b.26b.1.2c62 26c.26c.1.a7ad 26f.26f.1.19c 271.271.1.2c6e 272.272.1.19d 275.275.1.19f",
  "27d.27d.1.2c64 280.280.1.1a6 282.282.1.a7c5 283.283.1.1a9 287.287.1.a7b1 288.288.1.1ae",
  "289.289.1.244 28a.28b.1.1b1 28c.28c.1.245 292.292.1.1b7 29d.29d.1.a7b2 29e.29e.1.a7b0",
  "345.345.1.399 370.372.2.371 371.373.2.370 376.376.1.377 377.377.1.376 37b.37d.1.3fd",
  "37f.37f.1.3f3 386.386.1.3ac 388.38a.1.3ad 38c.38c.1.3cc 38e.38f.1.3cd 390.390.1.1fd3",
  "391.3a1.1.3b1 3a3.3a3.1.3c2 3a4.3ab.1.3c4 3ac.3ac.1.386 3ad.3af.1.388 3b0.3b0.1.1fe3",
  "3b1.3b3.2.391 3b2.3b2.1.3d0 3b4.3b6.2.394 3b5.3b5.1.3f5 3b7.3b7.1.397 3b8.3b8.1.3d1",
  "3b9.3b9.1.1fbe 3ba.3ba.1.3f0 3bb.3bf.2.39b 3bc.3bc.1.b5 3be.3be.1.39e 3c0.3c0.1.3d6",
  "3c1.3c1.1.3f1 3c2.3c2.1.3c3 3c3.3c5.1.3a3 3c6.3c6.1.3d5 3c7.3c8.1.3a7 3c9.3c9.1.2126",
  "3ca.3cb.1.3aa 3cc.3cc.1.38c 3cd.3ce.1.38e 3cf.3cf.1.3d7 3d0.3d0.1.392 3d1.3d1.1.3f4",
  "3d5.3d5.1.3a6 3d6.3d6.1.3a0 3d7.3d7.1.3cf 3d8.3ee.2.3d9 3d9.3ef.2.3d8 3f0.3f0.1.39a",
  "3f1.3f1.1.3a1 3f2.3f2.1.3f9 3f3.3f3.1.37f 3f4.3f4.1.398 3f5.3f5.1.395 3f7.3f7.1.3f8",
  "3f8.3f8.1.3f7 3f9.3f9.1.3f2 3fa.3fa.1.3fb 3fb.3fb.1.3fa 3fd.3ff.1.37b 400.40f.1.450",
  "410.42f.1.430 430.431.1.410 432.432.1.1c80 433.43f.2.413 434.434.1.1c81 436.43c.2.416",
  "43e.43e.1.1c82 440.440.1.420 441.442.1.1c83 443.449.1.423 44a.44a.1.1c86 44b.44f.1.42b",
  "450.45f.1.400 460.480.2.461 461.461.1.460 463.463.1.1c87 465.481.2.464 48a.4be.2.48b",
  "48b.4bf.2.48a 4c0.4c0.1.4cf 4c1.4cd.2.4c2 4c2.4ce.2.4c1 4cf.4cf.1.4c0 4d0.52e.2.4d1",
  "4d1.52f.2.4d0 531.556.1.561 561.586.1.531 10a0.10c5.1.2d00 10c7.10c7.1.2d27",
  "10cd.10cd.1.2d2d 10d0.10fa.1.1c90 10fd.10ff.1.1cbd 13a0.13ef.1.ab70 13f0.13f5.1.13f8",
  "13f8.13fd.1.13f0 1c80.1c80.1.412 1c81.1c81.1.414 1c82.1c82.1.41e 1c83.1c83.1.421",
  "1c84.1c84.1.1c85 1c85.1c85.1.422 1c86.1c86.1.42a 1c87.1c87.1.462 1c88.1c88.1.a64a",
  "1c89.1c89.1.1c8a 1c8a.1c8a.1.1c89 1c90.1cba.1.10d0 1cbd.1cbf.1.10fd 1d79.1d79.1.a77d",
  "1d7d.1d7d.1.2c63 1d8e.1d8e.1.a7c6 1e00.1e94.2.1e01 1e01.1e5f.2.1e00 1e61.1e61.1.1e9b",
  "1e63.1e95.2.1e62 1e9b.1e9b.1.1e60 1e9e.1e9e.1.df 1ea0.1efe.2.1ea1 1ea1.1eff.2.1ea0",
  "1f00.1f07.1.1f08 1f08.1f0f.1.1f00 1f10.1f15.1.1f18 1f18.1f1d.1.1f10 1f20.1f27.1.1f28",
  "1f28.1f2f.1.1f20 1f30.1f37.1.1f38 1f38.1f3f.1.1f30 1f40.1f45.1.1f48 1f48.1f4d.1.1f40",
  "1f51.1f57.2.1f59 1f59.1f5f.2.1f51 1f60.1f67.1.1f68 1f68.1f6f.1.1f60 1f70.1f71.1.1fba",
  "1f72.1f75.1.1fc8 1f76.1f77.1.1fda 1f78.1f79.1.1ff8 1f7a.1f7b.1.1fea 1f7c.1f7d.1.1ffa",
  "1f80.1f87.1.1f88 1f88.1f8f.1.1f80 1f90.1f97.1.1f98 1f98.1f9f.1.1f90 1fa0.1fa7.1.1fa8",
  "1fa8.1faf.1.1fa0 1fb0.1fb1.1.1fb8 1fb3.1fb3.1.1fbc 1fb8.1fb9.1.1fb0 1fba.1fbb.1.1f70",
  "1fbc.1fbc.1.1fb3 1fbe.1fbe.1.345 1fc3.1fc3.1.1fcc 1fc8.1fcb.1.1f72 1fcc.1fcc.1.1fc3",
  "1fd0.1fd1.1.1fd8 1fd3.1fd3.1.390 1fd8.1fd9.1.1fd0 1fda.1fdb.1.1f76 1fe0.1fe1.1.1fe8",
  "1fe3.1fe3.1.3b0 1fe5.1fe5.1.1fec 1fe8.1fe9.1.1fe0 1fea.1feb.1.1f7a 1fec.1fec.1.1fe5",
  "1ff3.1ff3.1.1ffc 1ff8.1ff9.1.1f78 1ffa.1ffb.1.1f7c 1ffc.1ffc.1.1ff3 2126.2126.1.3a9",
  "212a.212a.1.4b 212b.212b.1.c5 2132.2132.1.214e 214e.214e.1.2132 2160.216f.1.2170",
  "2170.217f.1.2160 2183.2183.1.2184 2184.2184.1.2183 24b6.24cf.1.24d0 24d0.24e9.1.24b6",
  "2c00.2c2f.1.2c30 2c30.2c5f.1.2c00 2c60.2c60.1.2c61 2c61.2c61.1.2c60 2c62.2c62.1.26b",
  "2c63.2c63.1.1d7d 2c64.2c64.1.27d 2c65.2c65.1.23a 2c66.2c66.1.23e 2c67.2c6b.2.2c68",
  "2c68.2c6c.2.2c67 2c6d.2c6d.1.251 2c6e.2c6e.1.271 2c6f.2c6f.1.250 2c70.2c70.1.252",
  "2c72.2c72.1.2c73 2c73.2c73.1.2c72 2c75.2c75.1.2c76 2c76.2c76.1.2c75 2c7e.2c7f.1.23f",
  "2c80.2ce2.2.2c81 2c81.2ce3.2.2c80 2ceb.2ced.2.2cec 2cec.2cee.2.2ceb 2cf2.2cf2.1.2cf3",
  "2cf3.2cf3.1.2cf2 2d00.2d25.1.10a0 2d27.2d27.1.10c7 2d2d.2d2d.1.10cd a640.a66c.2.a641",
  "a641.a649.2.a640 a64b.a64b.1.1c88 a64d.a66d.2.a64c a680.a69a.2.a681 a681.a69b.2.a680",
  "a722.a72e.2.a723 a723.a72f.2.a722 a732.a76e.2.a733 a733.a76f.2.a732 a779.a77b.2.a77a",
  "a77a.a77c.2.a779 a77d.a77d.1.1d79 a77e.a786.2.a77f a77f.a787.2.a77e a78b.a78b.1.a78c",
  "a78c.a78c.1.a78b a78d.a78d.1.265 a790.a792.2.a791 a791.a793.2.a790 a794.a794.1.a7c4",
  "a796.a7a8.2.a797 a797.a7a9.2.a796 a7aa.a7aa.1.266 a7ab.a7ab.1.25c a7ac.a7ac.1.261",
  "a7ad.a7ad.1.26c a7ae.a7ae.1.26a a7b0.a7b0.1.29e a7b1.a7b1.1.287 a7b2.a7b2.1.29d",
  "a7b3.a7b3.1.ab53 a7b4.a7c2.2.a7b5 a7b5.a7c3.2.a7b4 a7c4.a7c4.1.a794 a7c5.a7c5.1.282",
  "a7c6.a7c6.1.1d8e a7c7.a7c9.2.a7c8 a7c8.a7ca.2.a7c7 a7cb.a7cb.1.264 a7cc.a7da.2.a7cd",
  "a7cd.a7db.2.a7cc a7dc.a7dc.1.19b a7f5.a7f5.1.a7f6 a7f6.a7f6.1.a7f5 ab53.ab53.1.a7b3",
  "ab70.abbf.1.13a0 fb05.fb05.1.fb06 fb06.fb06.1.fb05 ff21.ff3a.1.ff41 ff41.ff5a.1.ff21",
  "10400.10427.1.10428 10428.1044f.1.10400 104b0.104d3.1.104d8 104d8.104fb.1.104b0",
  "10570.1057a.1.10597 1057c.1058a.1.105a3 1058c.10592.1.105b3 10594.10595.1.105bb",
  "10597.105a1.1.10570 105a3.105b1.1.1057c 105b3.105b9.1.1058c 105bb.105bc.1.10594",
  "10c80.10cb2.1.10cc0 10cc0.10cf2.1.10c80 10d50.10d65.1.10d70 10d70.10d85.1.10d50",
  "118a0.118bf.1.118c0 118c0.118df.1.118a0 16e40.16e5f.1.16e60 16e60.16e7f.1.16e40",
  "16ea0.16eb8.1.16ebb 16ebb.16ed3.1.16ea0 1e900.1e921.1.1e922 1e922.1e943.1.1e900"]

def all : List CaseStep := (table.flatMap (·.splitOn " ")).filterMap ofWord?

end CaseStep

/-- The next letter of the orbit of `c`; a letter alone in its orbit is its own next one. -/
def nextCase (c : Char) : Char :=
  match CaseStep.all.find? (·.covers c.toNat) with
  | some step => Char.ofNat (step.image + (c.toNat - step.first))
  | none => c

/-- The letters that differ from `c` in case only, `c` first; no orbit has more than four. -/
def caseOrbit (c : Char) : List Char :=
  let second := nextCase c
  let third := nextCase second
  [c, second, third, nextCase third]

end ClassSkeleton.Unicode
