/-!
# Case variants, as runs of code points

Characters that simple case folding identifies form a class; its key is the least code point in
it. Each entry of `caseRuns` gives a run of code points and how far each lies above its key:
`first-last:distance`, or `first-last/2:distance` for every second code point. A code point that
no entry covers is its own key.
-/

namespace UrlRouting.Unicode

/-- Code points above the key of their case class, run by run. -/
def caseRuns : String := "
61-7A:20 E0-F6:20 F8-FE:20 101-12F/2:1 133-137/2:1 13A-148/2:1 14B-177/2:1 178-178:79
17A-17E/2:1 17F-17F:12C 183-185/2:1 188-188:1 18C-18C:1 192-192:1 199-199:1 1A1-1A5/2:1
1A8-1A8:1 1AD-1AD:1 1B0-1B0:1 1B4-1B6/2:1 1B9-1B9:1 1BD-1BD:1 1C5-1C5:1 1C6-1C6:2 1C8-1C8:1
1C9-1C9:2 1CB-1CB:1 1CC-1CC:2 1CE-1DC/2:1 1DD-1DD:4F 1DF-1EF/2:1 1F2-1F2:1 1F3-1F3:2 1F5-1F5:1
1F6-1F6:61 1F7-1F7:38 1F9-21F/2:1 220-220:82 223-233/2:1 23C-23C:1 23D-23D:A3 242-242:1
243-243:C3 247-24F/2:1 253-253:D2 254-254:CE 256-257:CD 259-259:CA 25B-25B:CB 260-260:CD
263-263:CF 268-268:D1 269-269:D3 26F-26F:D3 272-272:D5 275-275:D6 280-280:DA 283-283:DA
288-288:DA 289-289:45 28A-28B:D9 28C-28C:47 292-292:DB 371-373/2:1 377-377:1 399-399:54
39C-39C:2E7 3AC-3AC:26 3AD-3AF:25 3B1-3B8:20 3B9-3B9:74 3BA-3BB:20 3BC-3BC:307 3BD-3C1:20
3C2-3C2:1F 3C3-3CB:20 3CC-3CC:40 3CD-3CE:3F 3D0-3D0:3E 3D1-3D1:39 3D5-3D5:2F 3D6-3D6:36
3D7-3D7:8 3D9-3EF/2:1 3F0-3F0:56 3F1-3F1:50 3F3-3F3:74 3F4-3F4:5C 3F5-3F5:60 3F8-3F8:1 3F9-3F9:7
3FB-3FB:1 3FD-3FF:82 430-44F:20 450-45F:50 461-481/2:1 48B-4BF/2:1 4C2-4CE/2:1 4CF-4CF:F
4D1-52F/2:1 561-586:30 13F8-13FD:8 1C80-1C80:186E 1C81-1C81:186D 1C82-1C82:1864 1C83-1C84:1862
1C85-1C85:1863 1C86-1C86:185C 1C87-1C87:1825 1C8A-1C8A:1 1C90-1CBA:BC0 1CBD-1CBF:BC0
1E01-1E95/2:1 1E9B-1E9B:3B 1E9E-1E9E:1DBF 1EA1-1EFF/2:1 1F08-1F0F:8 1F18-1F1D:8 1F28-1F2F:8
1F38-1F3F:8 1F48-1F4D:8 1F59-1F5F/2:8 1F68-1F6F:8 1F88-1F8F:8 1F98-1F9F:8 1FA8-1FAF:8
1FB8-1FB9:8 1FBA-1FBB:4A 1FBC-1FBC:9 1FBE-1FBE:1C79 1FC8-1FCB:56 1FCC-1FCC:9 1FD3-1FD3:1C43
1FD8-1FD9:8 1FDA-1FDB:64 1FE3-1FE3:1C33 1FE8-1FE9:8 1FEA-1FEB:70 1FEC-1FEC:7 1FF8-1FF9:80
1FFA-1FFB:7E 1FFC-1FFC:9 2126-2126:1D7D 212A-212A:20DF 212B-212B:2066 214E-214E:1C 2170-217F:10
2184-2184:1 24D0-24E9:1A 2C30-2C5F:30 2C61-2C61:1 2C62-2C62:29F7 2C63-2C63:EE6 2C64-2C64:29E7
2C65-2C65:2A2B 2C66-2C66:2A28 2C68-2C6C/2:1 2C6D-2C6D:2A1C 2C6E-2C6E:29FD 2C6F-2C6F:2A1F
2C70-2C70:2A1E 2C73-2C73:1 2C76-2C76:1 2C7E-2C7F:2A3F 2C81-2CE3/2:1 2CEC-2CEE/2:1 2CF3-2CF3:1
2D00-2D25:1C60 2D27-2D27:1C60 2D2D-2D2D:1C60 A641-A649/2:1 A64A-A64A:89C2 A64B-A64B:89C3
A64D-A66D/2:1 A681-A69B/2:1 A723-A72F/2:1 A733-A76F/2:1 A77A-A77C/2:1 A77D-A77D:8A04
A77F-A787/2:1 A78C-A78C:1 A78D-A78D:A528 A791-A793/2:1 A797-A7A9/2:1 A7AA-A7AA:A544
A7AB-A7AB:A54F A7AC-A7AC:A54B A7AD-A7AD:A541 A7AE-A7AE:A544 A7B0-A7B0:A512 A7B1-A7B1:A52A
A7B2-A7B2:A515 A7B5-A7C3/2:1 A7C4-A7C4:30 A7C5-A7C5:A543 A7C6-A7C6:8A38 A7C8-A7CA/2:1
A7CB-A7CB:A567 A7CD-A7CD:1 A7D1-A7D1:1 A7D7-A7DB/2:1 A7DC-A7DC:A641 A7F6-A7F6:1 AB53-AB53:3A0
AB70-ABBF:97D0 FB06-FB06:1 FF41-FF5A:20 10428-1044F:28 104D8-104FB:28 10597-105A1:27
105A3-105B1:27 105B3-105B9:27 105BB-105BC:27 10CC0-10CF2:40 10D70-10D85:20 118C0-118DF:20
16E60-16E7F:20 1E922-1E943:22
"

end UrlRouting.Unicode
