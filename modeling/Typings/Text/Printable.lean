import Typings.Text.CodePoint

/-!
Which characters may stand for themselves in quoted text. Those that may not are the controls, format characters,
separators other than the space, surrogates, private-use characters and code points without a character.
-/

namespace Typings.Text

/-- The code points from U+0080 on that may not stand for themselves, in hexadecimal, with `+` and a count for a run. -/
def unprintableData : String :=
  "80+21 ad 378+2 380+4 38b 38d 3a2 530 557+2 58b+2 590 5c8+8 5eb+4 5f5+11 61c 6dd 70e+2 74b+2 7b2+e 7fb+2 82e+2
    83f 85c+2 85f 86b+5 88f+9 8e2 984 98d+2 991+2 9a9 9b1 9b3+3 9ba+2 9c5+2 9c9+2 9cf+8 9d8+4 9de 9e4+2 9ff+2 a04
    a0b+4 a11+2 a29 a31 a34 a37 a3a+2 a3d a43+4 a49+2 a4e+3 a52+7 a5d a5f+7 a77+a a84 a8e a92 aa9 ab1 ab4 aba+2 ac6
    aca ace+2 ad1+f ae4+2 af2+7 b00 b04 b0d+2 b11+2 b29 b31 b34 b3a+2 b45+2 b49+2 b4e+7 b58+4 b5e b64+2 b78+a b84
    b8b+3 b91 b96+3 b9b b9d ba0+3 ba5+3 bab+3 bba+4 bc3+3 bc9 bce+2 bd1+6 bd8+e bfb+5 c0d c11 c29 c3a+2 c45 c49
    c4e+7 c57 c5b+2 c5e+2 c64+2 c70+7 c8d c91 ca9 cb4 cba+2 cc5 cc9 cce+7 cd7+6 cdf ce4+2 cf0 cf3+d d0d d11 d45 d49
    d50+4 d64+2 d80 d84 d97+3 db2 dbc dbe+2 dc7+3 dcb+4 dd5 dd7 de0+6 df0+2 df5+c e3b+4 e5c+25 e83 e85 e8b ea4 ea6
    ebe+2 ec5 ec7 ece+2 eda+2 ee0+20 f48 f6d+4 f98 fbd fcd fdb+25 10c6 10c8+5 10ce+2 1249 124e+2 1257 1259 125e+2
    1289 128e+2 12b1 12b6+2 12bf 12c1 12c6+2 12d7 1311 1316+2 135b+2 137d+3 139a+6 13f6+2 13fe+2 1680 169d+3 16f9+7
    1716+9 1737+9 1754+c 176d 1771 1774+c 17de+2 17ea+6 17fa+6 180e 181a+6 1879+7 18ab+5 18f6+a 191f 192c+4 193c+4
    1941+3 196e+2 1975+b 19ac+4 19ca+6 19db+3 1a1c+2 1a5f 1a7d+2 1a8a+6 1a9a+6 1aae+2 1acf+31 1b4d+3 1b7f 1bf4+8
    1c38+3 1c4a+3 1c89+7 1cbb+2 1cc8+8 1cfb+5 1f16+2 1f1e+2 1f46+2 1f4e+2 1f58 1f5a 1f5c 1f5e 1f7e+2 1fb5 1fc5
    1fd4+2 1fdc 1ff0+2 1ff5 1fff+11 2028+8 205f+11 2072+2 208f 209d+3 20c1+f 20f1+f 218c+4 2427+19 244b+15 2b74+2
    2b96 2cf4+5 2d26 2d28+5 2d2e+2 2d68+7 2d71+e 2d97+9 2da7 2daf 2db7 2dbf 2dc7 2dcf 2dd7 2ddf 2e5e+22 2e9a 2ef4+c
    2fd6+1a 2ffc+5 3040 3097+2 3100+5 3130 318f 31e4+c 321f a48d+3 a4c7+9 a62c+14 a6f8+8 a7cb+5 a7d2 a7d4 a7da+18
    a82d+3 a83a+6 a878+8 a8c6+8 a8da+6 a954+b a97d+3 a9ce a9da+4 a9ff aa37+9 aa4e+2 aa5a+2 aac3+18 aaf7+a ab07+2
    ab0f+2 ab17+9 ab27 ab2f ab6c+4 abee+2 abfa+6 d7a4+c d7c7+4 d7fc+2104 fa6e+2 fada+26 fb07+c fb18+5 fb37 fb3d
    fb3f fb42 fb45 fbc3+10 fd90+2 fdc8+7 fdd0+20 fe1a+6 fe53 fe67 fe6c+4 fe75 fefd+4 ffbf+3 ffc8+2 ffd0+2 ffd8+2
    ffdd+3 ffe7 ffef+d fffe+2 1000c 10027 1003b 1003e 1004e+2 1005e+22 100fb+5 10103+4 10134+3 1018f 1019d+3
    101a1+2f 101fe+82 1029d+3 102d1+f 102fc+4 10324+9 1034b+5 1037b+5 1039e 103c4+4 103d6+2a 1049e+2 104aa+6
    104d4+4 104fc+4 10528+8 10564+b 1057b 1058b 10593 10596 105a2 105b2 105ba 105bd+43 10737+9 10756+a 10768+18
    10786 107b1 107bb+45 10806+2 10809 10836 10839+3 1083d+2 10856 1089f+8 108b0+30 108f3 108f6+5 1091c+3 1093a+5
    10940+40 109b8+4 109d0+2 10a04 10a07+5 10a14 10a18 10a36+2 10a3b+4 10a49+7 10a59+7 10aa0+20 10ae7+4 10af7+9
    10b36+3 10b56+2 10b73+5 10b92+7 10b9d+c 10bb0+50 10c49+37 10cb3+d 10cf3+7 10d28+8 10d3a+126 10e7f 10eaa 10eae+2
    10eb2+4e 10f28+8 10f5a+16 10f8a+26 10fcc+14 10ff7+9 1104e+4 11076+9 110bd 110c3+d 110e9+7 110fa+6 11135 11148+8
    11177+9 111e0 111f5+b 11212 1123f+41 11287 11289 1128e 1129e 112aa+6 112eb+5 112fa+6 11304 1130d+2 11311+2
    11329 11331 11334 1133a 11345+2 11349+2 1134e+2 11351+6 11358+5 11364+2 1136d+3 11375+8b 1145c 11462+1e 114c8+8
    114da+a6 115b6+2 115de+22 11645+b 1165a+6 1166d+13 116ba+6 116ca+36 1171b+2 1172c+4 11747+b9 1183c+64 118f3+c
    11907+2 1190a+2 11914 11917 11936 11939+2 11947+9 1195a+46 119a8+2 119d8+2 119e5+1b 11a48+8 11aa3+d 11af9+107
    11c09 11c37 11c46+a 11c6d+3 11c90+2 11ca8 11cb7+49 11d07 11d0a 11d37+3 11d3b 11d3e 11d48+8 11d5a+6 11d66 11d69
    11d8f 11d92 11d99+7 11daa+136 11ef9+b7 11fb1+f 11ff2+d 1239a+66 1246f 12475+b 12544+a4c 12ff3+d 1342f+fd1
    14647+21b9 16a39+7 16a5f 16a6a+4 16abf 16aca+6 16aee+2 16af6+a 16b46+a 16b5a 16b62 16b78+5 16b90+2b0 16e9b+65
    16f4b+4 16f88+7 16fa0+40 16fe5+b 16ff2+e 187f8+8 18cd6+2a 18d09+22e7 1aff4 1affc 1afff 1b123+2d 1b153+11
    1b168+8 1b2fc+904 1bc6b+5 1bc7d+3 1bc89+7 1bc9a+2 1bca0+1260 1cf2e+2 1cf47+9 1cfc4+3c 1d0f6+a 1d127+2 1d173+8
    1d1eb+15 1d246+9a 1d2f4+c 1d357+9 1d379+87 1d455 1d49d 1d4a0+2 1d4a3+2 1d4a7+2 1d4ad 1d4ba 1d4bc 1d4c4 1d506
    1d50b+2 1d515 1d51d 1d53a 1d53f 1d545 1d547+3 1d551 1d6a6+2 1d7cc+2 1da8c+f 1daa0 1dab0+450 1df1f+e1 1e007
    1e019+2 1e022 1e025 1e02b+d5 1e12d+3 1e13e+2 1e14a+4 1e150+140 1e2af+11 1e2fa+5 1e300+4e0 1e7e7 1e7ec 1e7ef
    1e7ff 1e8c5+2 1e8d7+29 1e94c+4 1e95a+4 1e960+311 1ecb5+4c 1ed3e+c2 1ee04 1ee20 1ee23 1ee25+2 1ee28 1ee33 1ee38
    1ee3a 1ee3c+6 1ee43+4 1ee48 1ee4a 1ee4c 1ee50 1ee53 1ee55+2 1ee58 1ee5a 1ee5c 1ee5e 1ee60 1ee63 1ee65+2 1ee6b
    1ee73 1ee78 1ee7d 1ee7f 1ee8a 1ee9c+5 1eea4 1eeaa 1eebc+34 1eef2+10e 1f02c+4 1f094+c 1f0af+2 1f0c0 1f0d0
    1f0f6+a 1f1ae+38 1f203+d 1f23c+4 1f249+7 1f252+e 1f266+9a 1f6d8+5 1f6ed+3 1f6fd+3 1f774+c 1f7d9+7 1f7ec+4
    1f7f1+f 1f80c+4 1f848+8 1f85a+6 1f888+8 1f8ae+2 1f8b2+4e 1fa54+c 1fa6e+2 1fa75+3 1fa7d+3 1fa87+9 1faad+3
    1fabb+5 1fac6+a 1fada+6 1fae8+8 1faf7+9 1fb93 1fbcb+25 1fbfa+406 2a6e0+20 2b739+7 2b81e+2 2cea2+e 2ebe1+c1f
    2fa1e+5e2 3134b+aedb5 e01f0+2fe10"

/-- The runs of code points from U+0080 on that may not stand for themselves. -/
def unprintable : List Run := Run.readAll unprintableData

/-- Whether a character may stand for itself in quoted text. -/
def isPrintable (c : Char) : Bool :=
  if c.toNat < 0x80 then 0x20 ≤ c.toNat && c.toNat < 0x7F
  else !unprintable.any (·.holds c.toNat)

end Typings.Text
