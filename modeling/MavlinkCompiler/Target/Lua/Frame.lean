/-!
# Fixed parts of the dissector

The lines of the dissector that do not depend on the model: how the protocol is declared, the fields
of a frame's header with the helpers that check and pad a payload, and the functions that walk over
the frames of a packet.

* `protocolLines`, `headerLines`, `dispatcherLines`: the three parts in order.
* `udpPorts`, `tcpPorts`: where frames are looked for.
-/

namespace MavlinkCompiler.Lua

/-- The declaration of the protocol: `PROLOGUE`. -/
def protocolLines : List String := [
  "",
  "mavlink_proto = Proto(\"mavlink_proto\", \"MAVLink protocol\")",
  "local f = mavlink_proto.fields"]

/-- The fields of a frame's header, and the helpers for payloads: `HEADER_FIELDS`. -/
def headerLines : List String := [
  "",
  "f.magic = ProtoField.uint8(\"mavlink_proto.magic\", \"Magic value / version\", base.HEX)",
  "f.length = ProtoField.uint8(\"mavlink_proto.length\", \"Payload length\")",
  "f.incompat_flags = ProtoField.uint8(\"mavlink_proto.incompat_flags\", \"Incompatibility flags\", base.HEX)",
  "f.compat_flags = ProtoField.uint8(\"mavlink_proto.compat_flags\", \"Compatibility flags\", base.HEX)",
  "f.sequence = ProtoField.uint8(\"mavlink_proto.sequence\", \"Packet sequence\")",
  "f.sysid = ProtoField.uint8(\"mavlink_proto.sysid\", \"System id\")",
  "f.compid = ProtoField.uint8(\"mavlink_proto.compid\", \"Component id\")",
  "f.msgid = ProtoField.uint24(\"mavlink_proto.msgid\", \"Message id\", base.DEC, messageName)",
  "f.payload = ProtoField.uint24(\"mavlink_proto.payload\", \"Payload\", base.DEC, messageName)",
  "f.crc = ProtoField.uint16(\"mavlink_proto.crc\", \"Message CRC\", base.HEX)",
  "f.signature_link = ProtoField.uint8(\"mavlink_proto.signature_link\", \"Signature link id\")",
  "f.signature_time = ProtoField.bytes(\"mavlink_proto.signature_time\", \"Signature timestamp\")",
  "f.signature = ProtoField.bytes(\"mavlink_proto.signature\", \"Signature\")",
  "f.rawpayload = ProtoField.bytes(\"mavlink_proto.rawpayload\", \"Unparsable payload\")",
  "",
  "-- payload bytes padded with zeros up to the size the dissector expects",
  "local function payload_tvb(buffer, offset, len, wire_len)",
  "    if len >= wire_len then",
  "        return buffer(offset, wire_len):tvb()",
  "    end",
  "    local bytes = ByteArray.new()",
  "    if len > 0 then",
  "        bytes = buffer(offset, len):bytes()",
  "    end",
  "    bytes:set_size(wire_len)",
  "    return bytes:tvb(\"Zero-padded payload\")",
  "end",
  "",
  "local function check_payload_length(tree, len, base_len, wire_len)",
  "    if len < base_len then",
  "        tree:add_expert_info(PI_MALFORMED, PI_WARN,",
  "            \"Payload truncated: \" .. len .. \" of \" .. base_len .. \" bytes, missing bytes read as zero\")",
  "    elseif len > wire_len then",
  "        tree:add_expert_info(PI_PROTOCOL, PI_NOTE,",
  "            \"Payload longer than known fields: \" .. len .. \" of \" .. wire_len .. \" bytes\")",
  "    end",
  "end"]

/-- The functions that walk over frames: `DISPATCHER`. -/
def dispatcherLines : List String := [
  "",
  "-- dissect one frame starting at offset; nil when more bytes are needed",
  "local function dissect_frame(buffer, pinfo, tree, offset)",
  "    local bytes_remaining = buffer:len() - offset",
  "    local v2 = buffer(offset, 1):uint() == 0xfd",
  "    local header_len = 6",
  "    if v2 then",
  "        header_len = 10",
  "    end",
  "",
  "    if bytes_remaining < header_len then",
  "        pinfo.desegment_offset = offset",
  "        pinfo.desegment_len = header_len - bytes_remaining",
  "        return nil",
  "    end",
  "",
  "    local payload_len = buffer(offset + 1, 1):uint()",
  "    local signature_len = 0",
  "    if v2 and buffer(offset + 2, 1):uint() % 2 == 1 then",
  "        signature_len = 13",
  "    end",
  "    local frame_len = header_len + payload_len + 2 + signature_len",
  "    if frame_len > bytes_remaining then",
  "        pinfo.desegment_offset = offset",
  "        pinfo.desegment_len = frame_len - bytes_remaining",
  "        return nil",
  "    end",
  "",
  "    local msgid",
  "    if v2 then",
  "        msgid = buffer(offset + 7, 3):le_uint()",
  "    else",
  "        msgid = buffer(offset + 5, 1):uint()",
  "    end",
  "    local name = messageName[msgid]",
  "    local label = name or (\"msg \" .. msgid)",
  "    local subtree = tree:add(mavlink_proto, buffer(offset, frame_len), \"mavlink \" .. label .. \" (\" .. frame_len .. \")\")",
  "",
  "    local header = subtree:add(mavlink_proto, buffer(offset, header_len), \"Header\")",
  "    header:add(f.magic, buffer(offset, 1))",
  "    header:add(f.length, buffer(offset + 1, 1))",
  "    if v2 then",
  "        pinfo.cols.protocol = \"MAVLink 2.0\"",
  "        header:add(f.incompat_flags, buffer(offset + 2, 1))",
  "        header:add(f.compat_flags, buffer(offset + 3, 1))",
  "        header:add(f.sequence, buffer(offset + 4, 1))",
  "        header:add(f.sysid, buffer(offset + 5, 1))",
  "        header:add(f.compid, buffer(offset + 6, 1))",
  "        header:add_le(f.msgid, buffer(offset + 7, 3))",
  "    else",
  "        pinfo.cols.protocol = \"MAVLink 1.0\"",
  "        header:add(f.sequence, buffer(offset + 2, 1))",
  "        header:add(f.sysid, buffer(offset + 3, 1))",
  "        header:add(f.compid, buffer(offset + 4, 1))",
  "        header:add(f.msgid, buffer(offset + 5, 1))",
  "    end",
  "    offset = offset + header_len",
  "",
  "    local fn = payload_dissectors[msgid]",
  "    if fn == nil then",
  "        subtree:add_expert_info(PI_MALFORMED, PI_ERROR, \"Unknown message type\")",
  "        if payload_len > 0 then",
  "            subtree:add(f.rawpayload, buffer(offset, payload_len))",
  "        end",
  "    else",
  "        local payload = subtree:add(f.payload, msgid)",
  "        fn(buffer, payload, offset, payload_len)",
  "    end",
  "    pinfo.cols.info:append(\" \" .. label)",
  "    offset = offset + payload_len",
  "",
  "    subtree:add_le(f.crc, buffer(offset, 2))",
  "    offset = offset + 2",
  "",
  "    if signature_len > 0 then",
  "        subtree:add(f.signature_link, buffer(offset, 1))",
  "        subtree:add(f.signature_time, buffer(offset + 1, 6))",
  "        subtree:add(f.signature, buffer(offset + 7, 6))",
  "        offset = offset + signature_len",
  "    end",
  "    return offset",
  "end",
  "",
  "function mavlink_proto.dissector(buffer, pinfo, tree)",
  "    local offset = 0",
  "    pinfo.cols.info = \"mavlink\"",
  "",
  "    while offset < buffer:len() do",
  "        local magic = buffer(offset, 1):uint()",
  "        if magic ~= 0xfe and magic ~= 0xfd then",
  "            -- not a frame start, resynchronize on the next byte",
  "            offset = offset + 1",
  "        elseif buffer:len() - offset < 2 then",
  "            pinfo.desegment_offset = offset",
  "            pinfo.desegment_len = DESEGMENT_ONE_MORE_SEGMENT",
  "            return",
  "        else",
  "            local next_offset = dissect_frame(buffer, pinfo, tree, offset)",
  "            if next_offset == nil then",
  "                return",
  "            end",
  "            offset = next_offset",
  "        end",
  "    end",
  "    return offset",
  "end"]

/-- Ports on which datagrams carry frames: `UDP_PORTS`. -/
def udpPorts : List Nat := [14550]

/-- Ports on which streams carry frames: `TCP_PORTS`. -/
def tcpPorts : List Nat := [14555, 14556, 14557, 40115]

end MavlinkCompiler.Lua
